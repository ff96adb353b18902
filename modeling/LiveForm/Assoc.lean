/-!
Finite maps as lists of pairs with strictly increasing keys. `find?` sees the first pair of a key;
`insert` replaces it where it stands and keeps the order. The laws of look-up need no sortedness.
-/

set_option autoImplicit false

namespace LiveForm.Assoc

variable {κ : Type} {α : Type}

def find? [DecidableEq κ] (k : κ) : List (κ × α) → Option α
  | [] => none
  | (k', v) :: rest => if k' = k then some v else find? k rest

def contains [DecidableEq κ] (k : κ) (m : List (κ × α)) : Bool := (find? k m).isSome

def insert [DecidableEq κ] [LT κ] [DecidableLT κ] (k : κ) (v : α) : List (κ × α) → List (κ × α)
  | [] => [(k, v)]
  | (k', v') :: rest =>
    if k' = k then (k, v) :: rest
    else if k < k' then (k, v) :: (k', v') :: rest
    else (k', v') :: insert k v rest

def erase [DecidableEq κ] (k : κ) (m : List (κ × α)) : List (κ × α) := m.filter fun e => e.1 ≠ k

def keys (m : List (κ × α)) : List κ := m.map Prod.fst

/-- Inserts pairs one after another, so the last pair of a key stays. -/
def ofPairs [DecidableEq κ] [LT κ] [DecidableLT κ] (pairs : List (κ × α)) : List (κ × α) :=
  pairs.foldl (fun m e => insert e.1 e.2 m) []

/-- Keys strictly increase, so no key occurs twice. -/
def Sorted [LT κ] (m : List (κ × α)) : Prop := m.Pairwise fun a b => a.1 < b.1

@[simp] theorem find?_nil [DecidableEq κ] (k : κ) : find? k ([] : List (κ × α)) = none := rfl

@[simp] theorem find?_insert_self [DecidableEq κ] [LT κ] [DecidableLT κ] (k : κ) (v : α)
    (m : List (κ × α)) : find? k (insert k v m) = some v := by
  induction m with
  | nil => simp [insert, find?]
  | cons e rest ih =>
    obtain ⟨k', v'⟩ := e
    simp only [insert]
    split
    · simp [find?]
    · split
      · simp [find?]
      · simp [find?, *]

theorem find?_insert_ne [DecidableEq κ] [LT κ] [DecidableLT κ] {k q : κ} (h : k ≠ q) (v : α)
    (m : List (κ × α)) : find? q (insert k v m) = find? q m := by
  induction m with
  | nil => simp [insert, find?, h]
  | cons e rest ih =>
    obtain ⟨k', v'⟩ := e
    simp only [insert]
    split
    · rename_i heq
      subst heq
      simp [find?, h]
    · split
      · simp [find?, h]
      · simp [find?, ih]

@[simp] theorem find?_erase_self [DecidableEq κ] (k : κ) (m : List (κ × α)) :
    find? k (erase k m) = none := by
  induction m with
  | nil => rfl
  | cons e rest ih =>
    obtain ⟨k', v'⟩ := e
    by_cases h : k' = k <;> simp_all [erase, find?]

theorem find?_erase_ne [DecidableEq κ] {k q : κ} (h : k ≠ q) (m : List (κ × α)) :
    find? q (erase k m) = find? q m := by
  induction m with
  | nil => rfl
  | cons e rest ih =>
    obtain ⟨k', v'⟩ := e
    by_cases hk : k' = k
    · subst hk
      simp_all [erase, find?]
    · simp_all [erase, find?]

end LiveForm.Assoc
