import Reconcile.Text.Blank
import Reconcile.Value
import Reconcile.Yaml.Reading
import Reconcile.Yaml.Writing

/-!
# Literals

The values that a schema spells out.  Integers are wide where they fit, other numbers are
doubles, and collections stand for their own text.
-/

namespace Reconcile

namespace Value

def ofScalar : Yaml.Scalar → Value
  | .null => null
  | .bool b => bool b
  | .integer n =>
      if -2 ^ 63 ≤ n ∧ n < 2 ^ 63 then bigInt (Int64.ofInt n) else double (Binary64.ofInt n)
  | .double x => double x
  | .string s => text s

def ofYaml : Yaml → Value
  | .scalar s => ofScalar s
  | .tagged _ value => ofYaml value
  | collection => text (String.ofList (Text.trimEnd collection.text))

end Value

end Reconcile
