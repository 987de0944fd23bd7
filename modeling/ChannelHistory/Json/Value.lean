import ChannelHistory.Decimal.Layout
import ChannelHistory.Text.Quoted

namespace ChannelHistory.Json

inductive Number
  | integer : Int → Number
  | real : Float → Number

inductive Value
  | null : Value
  | boolean : Bool → Value
  | number : Number → Value
  | string : String → Value
  | array : List Value → Value
  | object : List (String × Value) → Value

/-- Of a repeated key the last value counts. -/
def member? (key : String) : List (String × Value) → Option Value
  | [] => none
  | (k, v) :: ms => (member? key ms).or (if k = key then some v else none)

def Number.written : Number → String
  | .integer n => String.ofList ((if n < 0 then ['-'] else []) ++ Decimal.digitsOf n.natAbs)
  | .real x => Decimal.withExponent x

def Value.described : Value → String
  | .null => "null"
  | .boolean true => "boolean `true`"
  | .boolean false => "boolean `false`"
  | .number (.integer n) => "integer `" ++ (Number.integer n).written ++ "`"
  | .number (.real x) => "floating point `" ++ (Number.real x).written ++ "`"
  | .string s => "string " ++ Text.quoted s
  | .array _ => "sequence"
  | .object _ => "map"

end ChannelHistory.Json
