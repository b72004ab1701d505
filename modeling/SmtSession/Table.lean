/-!
# Tables of texts

**A table** holds one text for each of its keys, in the order in which the
keys came. Setting a key that is there replaces its text and keeps its place.
-/

namespace SmtSession

/-- Texts by key, in the order in which the keys came. -/
structure Table where
  entries : List (String × String)
  deriving DecidableEq, Inhabited

namespace Table

/-- The table without keys. -/
def empty : Table := ⟨[]⟩

/-- The text of a key. -/
def get? (t : Table) (key : String) : Option String :=
  t.entries.lookup key

/-- The entries with the text of a key set. -/
def setIn (key text : String) : List (String × String) → List (String × String)
  | [] => [(key, text)]
  | (k, t) :: es => if key = k then (k, text) :: es else (k, t) :: setIn key text es

/-- The table with the text of a key set. -/
def set (t : Table) (key text : String) : Table :=
  ⟨setIn key text t.entries⟩

/-- The table with entries set one after the other. -/
def setAll (t : Table) (entries : List (String × String)) : Table :=
  entries.foldl (fun t (key, text) => t.set key text) t

/-- What a key gives after a key was set. -/
theorem get?_set (t : Table) (key text k : String) :
    (t.set key text).get? k = if k = key then some text else t.get? k := by
  obtain ⟨es⟩ := t
  simp only [get?, set]
  induction es with
  | nil => by_cases h : k = key <;> simp [setIn, List.lookup_cons, h, beq_eq_false_iff_ne.2]
  | cons e es ih =>
    obtain ⟨a, b⟩ := e
    by_cases hk : key = a
    · subst hk
      by_cases h : k = key <;> simp [setIn, List.lookup_cons, h, beq_eq_false_iff_ne.2]
    · by_cases ha : k = a
      · have : ¬ k = key := fun e => hk (e.symm.trans ha)
        subst ha
        simp [setIn, hk, this]
      · simp [setIn, List.lookup_cons, hk, beq_eq_false_iff_ne.2 ha, ih]

end Table

end SmtSession
