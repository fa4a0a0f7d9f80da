import DebugBridge.File.Path
import DebugBridge.Text.Percent

/-!
File URIs of paths.  A path is written with slashes and percent escapes behind `file://`, with a
slash in front if it has none; reading drops that slash again before a drive letter.
-/

namespace DebugBridge
namespace Uri

/-- Characters of a path that are not escaped. -/
def isPlain (c : Char) : Bool := c.isAlphanum || "/:-_.~".toList.contains c

/-- The scheme of file URIs. -/
def scheme : List Char := "file://".toList

/-- The URI of a path. -/
def ofPath (path : String) : String :=
  let text := (Path.withSlashes path).toList
  let lead := if text.head? == some '/' then [] else ['/']
  String.ofList (scheme ++ lead ++ Text.Percent.encode isPlain text)

/-- The path of a URI; what is no file URI is taken as a path. -/
def toPath (uri : String) : String :=
  match Text.afterStart scheme uri.toList with
  | none => uri
  | some rest =>
    match Text.utf8Lossy (Text.Percent.decode (Text.utf8 rest)) with
    | '/' :: path => String.ofList (if Path.hasDrive path then path else '/' :: path)
    | path => String.ofList path

end Uri
end DebugBridge
