import MapGate.Capabilities.Substitution
import MapGate.Url.Parser

/-!
# Links that lead back to the gate

The renderer advertises its own address together with the file of the project.
Each such link is pointed at the path by which the client reached the gate, at
the public address if there is one, and loses its `MAP` parameter.
-/

namespace MapGate.Capabilities

/-- A URL pointed at the gate. It keeps the scheme and authority that it has, or gets
those of the public address. -/
def pointAtGate? (base? : Option Url) (publicPath : String) (url : Url) : Option Url :=
  match base? with
  | none => some (url.setPath publicPath)
  | some base =>
    let root := Text.withoutFinal '/' (String.ofList base.path.renderChars)
    (url.moveTo? base).map (·.setPath (root ++ publicPath))

/-- What a link becomes, if it can be read and pointed at the gate. -/
def rewriteLink? (base? : Option Url) (publicPath link : String) : Option String := do
  let url ← Url.ofText? (Text.replace "&amp;" "&" link)
  let kept := url.params.remove "MAP"
  let url ← pointAtGate? base? publicPath url
  some (Text.replace "&" "&amp;" (url.setQuery kept.toQuery).render)

/-- A capability document with its links pointed at the gate, if that makes a
difference. -/
def rewrite? (base? : Option Url) (publicPath document : String) : Option String :=
  substitute? (rewriteLink? base? publicPath) document

end MapGate.Capabilities
