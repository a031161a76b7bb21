/-!
# Cache settings

How long an entry lives when nothing else is said, and the prefix of all keys.
-/

namespace Folio.Cache

structure Settings where
  seconds : Nat
  keyPrefix : String
  deriving DecidableEq, Repr

namespace Settings

def api : Settings := ⟨300, "api"⟩

def user : Settings := ⟨600, "user"⟩

def content : Settings := ⟨300, "content"⟩

def collection : Settings := ⟨600, "collection"⟩

/-- The key of a kind of data, or of one item of that kind. -/
def key (settings : Settings) (kind : String) (id : Option String) : String :=
  match id with
  | some id => settings.keyPrefix ++ ":" ++ kind ++ ":" ++ id
  | none => settings.keyPrefix ++ ":" ++ kind

end Settings

end Folio.Cache
