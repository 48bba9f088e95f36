import Gridfill.Service.Store

/-!
# Calls of the service

A call asks to upload, to show, to fill or to delete a template. Each call brings the settings that are read
for it, which may fail, and an upload the stem of its identifier. A call gives the store after it and its
answer; a call that fails gives the store as it then is.
-/

namespace Gridfill

/-- A call of the service. -/
inductive Call where
  | upload (settings : Except Failure Settings) (stem : String) (filename : Option String) (content : Upload)
  | get (id : String)
  | render (settings : Except Failure Settings) (id : String) (request : RenderRequest)
  | delete (id : String)

/-- What a call answers. -/
inductive Reply where
  | summary (summary : Summary)
  | rendered (rendered : Rendered)
  | deleted (id : String)

namespace Store

/-- The store after a call, and the answer. -/
def perform (s : Store) : Call → Store × Except Failure Reply
  | .upload settings stem filename content =>
    let r := s.upload settings stem filename content
    (r.1, r.2.map .summary)
  | .get id => (s, (s.show? id).map .summary)
  | .render settings id request => (s, (s.render settings id request).map .rendered)
  | .delete id =>
    let r := s.delete id
    (r.1, r.2.map fun _ => .deleted id)

end Store
end Gridfill
