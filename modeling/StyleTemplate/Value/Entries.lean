/-
  **Named entries in the order of their declaration.**

  Entries are a list of keys with their values.  Inserting under a key that is
  there already replaces the value and keeps the place, so entries collected by
  insertion stand in the order in which their keys first occurred
  (`Entries.insert`), and no key occurs twice (`Entries.keys_ofPairs_nodup`).
-/

namespace StyleTemplate

/-- Keys with values, in order. -/
abbrev Entries (α : Type) := List (String × α)

namespace Entries

variable {α : Type}

def get? (key : String) : Entries α → Option α
  | [] => none
  | (k, v) :: more => if k = key then some v else get? key more

def keys (entries : Entries α) : List String :=
  entries.map Prod.fst

/-- Puts a value under a key: in the place of the old value, or at the end. -/
def insert (key : String) (value : α) : Entries α → Entries α
  | [] => [(key, value)]
  | (k, v) :: more => if k = key then (key, value) :: more else (k, v) :: insert key value more

def erase (key : String) : Entries α → Entries α
  | [] => []
  | (k, v) :: more => if k = key then more else (k, v) :: erase key more

/-- The entries that result from inserting pairs one after another. -/
def ofPairs (pairs : List (String × α)) : Entries α :=
  pairs.foldl (fun entries (key, value) => insert key value entries) []

/-! ### What insertion does -/

theorem get?_insert_self (key : String) (value : α) (entries : Entries α) :
    get? key (insert key value entries) = some value := by
  fun_induction insert key value entries with
  | case1 => simp [get?]
  | case2 => simp [get?]
  | case3 k v more h ih => simp [get?, h, ih]

theorem get?_insert_of_ne {key other : String} (value : α) (entries : Entries α)
    (h : other ≠ key) : get? other (insert key value entries) = get? other entries := by
  fun_induction insert key value entries with
  | case1 => simp [get?, Ne.symm h]
  | case2 v more => simp [get?, Ne.symm h]
  | case3 k v more hk ih => simp [get?, ih]

theorem keys_insert (key : String) (value : α) (entries : Entries α) :
    keys (insert key value entries) =
      if key ∈ keys entries then keys entries else keys entries ++ [key] := by
  fun_induction insert key value entries with
  | case1 => simp [keys]
  | case2 v more => simp [keys]
  | case3 k v more hk ih =>
    have hk' : ¬ key = k := fun h => hk h.symm
    simp only [keys, List.map_cons, List.mem_cons, hk', false_or] at ih ⊢
    rw [ih]
    split <;> simp_all

theorem keys_insert_nodup {entries : Entries α} (key : String) (value : α)
    (h : (keys entries).Nodup) : (keys (insert key value entries)).Nodup := by
  rw [keys_insert]
  split
  next => exact h
  next fresh =>
    refine List.nodup_append.2 ⟨h, by simp, ?_⟩
    intro a ha b hb
    rw [List.mem_singleton] at hb
    exact fun hab => fresh (hb ▸ hab ▸ ha)

theorem keys_ofPairs_nodup (pairs : List (String × α)) : (keys (ofPairs pairs)).Nodup := by
  have step : ∀ entries : Entries α, (keys entries).Nodup →
      (keys (pairs.foldl (fun entries (key, value) => insert key value entries) entries)).Nodup := by
    induction pairs with
    | nil => exact fun _ h => h
    | cons pair pairs ih => exact fun entries h => ih _ (keys_insert_nodup _ _ h)
  exact step [] List.nodup_nil

end Entries

end StyleTemplate
