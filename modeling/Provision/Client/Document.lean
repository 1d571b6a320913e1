import Provision.Client.MediaType
import Provision.Session

namespace Provision

structure Document where
  id : Value
  content : Value
  mediaType : Value := .text MediaType.plain
  metadata : Value := .ofEntries []
  deriving Repr

namespace Document

def toValue (d : Document) : Value :=
  .record [("document_id", d.id), ("content", d.content), ("mime_type", d.mediaType),
    ("metadata", d.metadata)]

def ofFile (path : String) : Action Document := do
  let p := Path.ofText path
  let content ← Action.readText p.text
  return { id := .text p.name
           content := .text content
           mediaType := .text (MediaType.ofFileName p.name)
           metadata := .record [("source", .text p.text)] }

end Document
end Provision
