
namespace ChannelHistory.Toml

inductive Value
  | string : String → Value
  | integer : Int → Value
  | real : Float → Value
  | boolean : Bool → Value
  | dateTime : String → Value
  | array : List Value → Value
  | table : List (String × Value) → Value

end ChannelHistory.Toml
