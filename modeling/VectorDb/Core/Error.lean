import VectorDb.Core.Types

/-!
The exception hierarchy of include/vectordb/core/error.hpp, with the texts its
constructors build.
-/
set_option autoImplicit false

namespace VectorDb

/-- The classes the code throws. `foreign` is any exception outside the
hierarchy, such as one thrown by a caller's own code. -/
inductive Error where
  | invalidArgument (what : String) : Error
  | dimensionMismatch (expected actual : Dimension) : Error
  | invalidVector (what : String) : Error
  | notFound (what : String) : Error
  | duplicateId (id : VectorId) : Error
  | io (what : String) : Error
  | corruption (what : String) : Error
  | unsupportedVersion (artefact : String) (found supported : Nat) : Error
  | metadata (what : String) : Error
  | foreign (what : String) : Error
  deriving DecidableEq, Repr

def Error.what : Error → String
  | .invalidArgument what => what
  | .dimensionMismatch expected actual =>
    "vector dimension mismatch: database dimension = " ++ toString expected ++
      ", input dimension = " ++ toString actual
  | .invalidVector what => what
  | .notFound what => what
  | .duplicateId id =>
    "vector id " ++ toString id.val ++ " already exists (duplicate policy = reject)"
  | .io what => what
  | .corruption what => what
  | .unsupportedVersion artefact found supported =>
    artefact ++ ": unsupported format version " ++ toString found ++
      " (this build understands up to " ++ toString supported ++
      "); the file was written by a newer VectorDB"
  | .metadata what => what
  | .foreign what => what

/-- Caught by `catch (const CorruptionError&)`. -/
def Error.isCorruption : Error → Bool
  | .corruption _ => true
  | .unsupportedVersion _ _ _ => true
  | _ => false

/-- Caught by `catch (const IoError&)`. -/
def Error.isIo : Error → Bool
  | .io _ => true
  | _ => false

end VectorDb
