import FabricFootprint.Document.Services
import FabricFootprint.Files
import FabricFootprint.Json.Reader
import FabricFootprint.Yaml.Reader

/-!
FabricFootprint.Document.ServiceFile — service definitions as JSON or YAML files.

The extension of the file decides: `yaml` and `yml`, in any case of letters, are read as YAML,
and anything else as JSON.
-/

namespace FabricFootprint

namespace ServiceDefinition

def ofJson? (text : String) : Option ServiceDefinition := (Json.read text).bind decode?

def ofYaml? (text : String) : Option ServiceDefinition := (Yaml.read text).bind decode?

def unreadable : String := "the text is not a service definition"

/-- Whether a path names a YAML file. -/
def isYamlPath (path : String) : Bool :=
  (pathExtension? path).any fun ext =>
    let ext := Text.lowerAscii ext
    ext == "yaml" || ext == "yml"

/-- The definition in a file, given what reading the file gave. -/
def ofFile (path : String) (content : Except FileFailure String) :
    Except Fault ServiceDefinition :=
  match content with
  | .error failure => .error (.io path failure.message)
  | .ok text =>
    match if isYamlPath path then ofYaml? text else ofJson? text with
    | some definition => .ok definition
    | none => .error (.serialization unreadable)

end ServiceDefinition

end FabricFootprint
