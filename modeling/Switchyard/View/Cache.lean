import Switchyard.View.Basic
/-!
# View caches

Answers of a view resolver by view name and locale. A cache holds a bounded number of them and
gives up the one that was used longest ago; that nothing was found is an answer too.
-/

namespace Switchyard

/-- What a cache is asked for: a view name and a locale. -/
abbrev ViewKey := String × String

/-- Answers, the most recently used first. A cache without a limit holds none. -/
structure ViewCache where
  limit : Nat
  entries : List (ViewKey × Option View) := []

instance : Inhabited ViewCache := ⟨{ limit := 0 }⟩

namespace ViewCache

/-- The number of answers that a cache holds unless another one is set. -/
def defaultLimit : Nat := 1024

def without (entries : List (ViewKey × Option View)) (key : ViewKey) :
    List (ViewKey × Option View) :=
  entries.filter fun e => e.1 != key

/-- The answer for a key, which becomes the most recent one. -/
def get? (c : ViewCache) (key : ViewKey) : Option (Option View × ViewCache) :=
  (c.entries.find? fun e => e.1 == key).map fun e =>
    (e.2, { c with entries := e :: without c.entries key })

/-- Stores an answer as the most recent one, and says which key had to go for it. -/
def store (c : ViewCache) (key : ViewKey) (answer : Option View) : Option ViewKey × ViewCache :=
  if c.limit = 0 then (none, c)
  else
    let entries := (key, answer) :: without c.entries key
    if c.limit < entries.length then
      ((entries.getLast?).map (·.1), { c with entries := entries.dropLast })
    else (none, { c with entries })

def clear (c : ViewCache) : ViewCache := { c with entries := [] }

def size (c : ViewCache) : Nat := c.entries.length

end ViewCache

end Switchyard
