/-
  Repartee.Dict — a map from names to values, listed in ascending order of the names.

  The order is that of the strings' code points and is part of the type, so two dictionaries
  with the same answers to `find?` are equal. `put` replaces the value of a name that is
  there; `erase` forgets it.
-/

namespace Repartee

structure Dict (α : Type) where
  entries : List (String × α)
  sorted : entries.Pairwise (·.1 < ·.1) := by simp
  deriving Repr, DecidableEq

namespace Dict

variable {α : Type}

instance : EmptyCollection (Dict α) := ⟨{ entries := [] }⟩

instance : Inhabited (Dict α) := ⟨∅⟩

/-- The value of the first entry named `k`. -/
def lookup (k : String) : List (String × α) → Option α
  | [] => none
  | (k', v) :: rest => if k = k' then some v else lookup k rest

def find? (d : Dict α) (k : String) : Option α := lookup k d.entries

def contains (d : Dict α) (k : String) : Bool := (d.find? k).isSome

/-- Insert before the first greater name, replacing an equal one. -/
def insert (k : String) (v : α) : List (String × α) → List (String × α)
  | [] => [(k, v)]
  | (k', v') :: rest =>
    if k < k' then (k, v) :: (k', v') :: rest
    else if k = k' then (k, v) :: rest
    else (k', v') :: insert k v rest

theorem mem_insert {k : String} {v : α} {l : List (String × α)} {e : String × α}
    (h : e ∈ insert k v l) : e = (k, v) ∨ e ∈ l := by
  induction l with
  | nil => simpa [insert] using h
  | cons e' l ih =>
    simp only [insert] at h
    split at h
    · simpa using h
    · split at h
      · rcases List.mem_cons.mp h with h | h
        · exact .inl h
        · exact .inr (List.mem_cons_of_mem _ h)
      · rcases List.mem_cons.mp h with h | h
        · exact .inr (h ▸ List.mem_cons_self)
        · exact (ih h).imp_right (List.mem_cons_of_mem _)

theorem lt_of_not_lt_of_ne {a b : String} (h : ¬ a < b) (hne : a ≠ b) : b < a := by
  rcases Std.lt_trichotomy a b with hlt | heq | hgt
  · exact absurd hlt h
  · exact absurd heq hne
  · exact hgt

theorem sorted_insert (k : String) (v : α) {l : List (String × α)}
    (h : l.Pairwise (·.1 < ·.1)) : (insert k v l).Pairwise (·.1 < ·.1) := by
  induction l with
  | nil => simp [insert]
  | cons e l ih =>
    obtain ⟨hall, hl⟩ := List.pairwise_cons.mp h
    simp only [insert]
    split
    · rename_i hlt
      refine List.pairwise_cons.mpr ⟨fun e' he' => ?_, h⟩
      rcases List.mem_cons.mp he' with rfl | he'
      · exact hlt
      · exact String.lt_trans hlt (hall e' he')
    · split
      · rename_i heq
        exact List.pairwise_cons.mpr ⟨fun e' he' => heq ▸ hall e' he', hl⟩
      · rename_i hlt hne
        refine List.pairwise_cons.mpr ⟨fun e' he' => ?_, ih hl⟩
        rcases mem_insert he' with rfl | he'
        · exact lt_of_not_lt_of_ne hlt hne
        · exact hall e' he'

def put (d : Dict α) (k : String) (v : α) : Dict α :=
  ⟨insert k v d.entries, sorted_insert k v d.sorted⟩

def erase (d : Dict α) (k : String) : Dict α :=
  ⟨d.entries.filter (·.1 ≠ k), d.sorted.filter _⟩

def keys (d : Dict α) : List String := d.entries.map (·.1)

def isEmpty (d : Dict α) : Bool := d.entries.isEmpty

/-- Put pairs in order, so that a later one replaces an earlier one of its name. -/
def putAll (d : Dict α) (pairs : List (String × α)) : Dict α :=
  pairs.foldl (fun d (k, v) => d.put k v) d

def ofPairs (pairs : List (String × α)) : Dict α := putAll ∅ pairs

/-! ## What each operation does to `find?` -/

theorem lookup_insert (k k' : String) (v : α) (l : List (String × α)) :
    lookup k' (insert k v l) = if k' = k then some v else lookup k' l := by
  induction l with
  | nil => simp [insert, lookup]
  | cons e l ih =>
    simp only [insert]
    split
    · simp [lookup]
    · split
      · rename_i heq
        by_cases h : k' = k <;> simp [lookup, h, ← heq]
      · rename_i hne
        simp only [lookup, ih]
        split
        · rename_i h
          rw [if_neg]
          exact fun h' => hne (h' ▸ h)
        · rfl

theorem lookup_filter_ne (k k' : String) (l : List (String × α)) :
    lookup k' (l.filter (·.1 ≠ k)) = if k' = k then none else lookup k' l := by
  induction l with
  | nil => simp [lookup]
  | cons e l ih =>
    by_cases he : e.1 = k
    · simp only [List.filter_cons, he, ne_eq, not_true, decide_false, Bool.false_eq_true, if_false, ih, lookup]
      split
      · rfl
      · rfl
    · simp only [List.filter_cons, ne_eq, he, not_false_iff, decide_true, if_true, lookup, ih]
      split
      · rename_i h
        rw [if_neg]
        exact fun h' => he (h ▸ h')
      · rfl

@[simp] theorem find?_empty (k : String) : (∅ : Dict α).find? k = none := rfl

theorem find?_put (d : Dict α) (k k' : String) (v : α) :
    (d.put k v).find? k' = if k' = k then some v else d.find? k' :=
  lookup_insert k k' v d.entries

theorem find?_erase (d : Dict α) (k k' : String) :
    (d.erase k).find? k' = if k' = k then none else d.find? k' :=
  lookup_filter_ne k k' d.entries

@[simp] theorem find?_put_self (d : Dict α) (k : String) (v : α) : (d.put k v).find? k = some v := by
  simp [find?_put]

@[simp] theorem find?_erase_self (d : Dict α) (k : String) : (d.erase k).find? k = none := by
  simp [find?_erase]

theorem find?_put_of_ne (d : Dict α) {k k' : String} (v : α) (h : k' ≠ k) :
    (d.put k v).find? k' = d.find? k' := by simp [find?_put, h]

theorem find?_erase_of_ne (d : Dict α) {k k' : String} (h : k' ≠ k) :
    (d.erase k).find? k' = d.find? k' := by simp [find?_erase, h]

end Dict

end Repartee
