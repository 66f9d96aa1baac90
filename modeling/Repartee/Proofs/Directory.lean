/-
  Repartee.Proofs.Directory — a directory is listed with each of its files once, in order.

  Files are kept under whole paths, in ascending order of these. A directory's files are those
  whose paths continue its own by one name.

  Proved:
  - A path and its names determine each other (`keyOf_pathNames`, `pathNames_keyOf`).
  - Within a directory, paths compare as their last names do (`below_lt_below`).
  - A listing is strictly ascending (`sorted_filesIn`) and complete (`mem_filesIn_iff`).
-/

import Mathlib.Data.String.Basic
import Repartee.Files

namespace Repartee

theorem Text.fields_eq_splitOnP (p : Char → Bool) (cs : List Char) : Text.fields p cs = cs.splitOnP p := by
  induction cs with
  | nil => rw [Text.fields, List.splitOnP_nil]
  | cons c cs ih => rw [Text.fields, List.splitOnP_cons_eq_if_modifyHead, ih]

/-- A piece has no character at which the text is cut. -/
theorem Text.eq_false_of_mem_fields {p : Char → Bool} {cs f : List Char} {c : Char} (hf : f ∈ Text.fields p cs)
    (hc : c ∈ f) : p c = false := by
  induction cs generalizing f with
  | nil =>
    rw [Text.fields, List.mem_singleton] at hf
    cases hf ▸ hc
  | cons d cs ih =>
    rw [Text.fields] at hf
    by_cases hd : p d
    · rw [if_pos hd, List.mem_cons] at hf
      rcases hf with rfl | hf
      · cases hc
      · exact ih hf hc
    · rw [if_neg hd] at hf
      cases hrest : Text.fields p cs with
      | nil => simp [hrest] at hf
      | cons g gs =>
        rw [hrest, List.modifyHead_cons, List.mem_cons] at hf
        rcases hf with rfl | hf
        · rcases List.mem_cons.mp hc with rfl | hc
          · exact Bool.eq_false_iff.mpr hd
          · exact ih (hrest ▸ List.mem_cons_self) hc
        · exact ih (hrest ▸ List.mem_cons_of_mem g hf) hc

namespace Dict

variable {α : Type} {k : String} {v : α}

theorem lookup_eq_some_iff {l : List (String × α)} (h : l.Pairwise (·.1 < ·.1)) :
    lookup k l = some v ↔ (k, v) ∈ l := by
  induction l with
  | nil => simp [lookup]
  | cons e l ih =>
    obtain ⟨k', v'⟩ := e
    obtain ⟨hlt, hl⟩ := List.pairwise_cons.mp h
    rw [lookup, List.mem_cons, Prod.mk.injEq]
    by_cases hk : k = k'
    · subst hk
      have hmem : (k, v) ∉ l := fun hmem => lt_irrefl k (hlt _ hmem)
      simp [hmem, eq_comm]
    · simp [hk, ih hl]

theorem find?_eq_some_iff {d : Dict α} : d.find? k = some v ↔ (k, v) ∈ d.entries := lookup_eq_some_iff d.sorted

end Dict

namespace Files

/-! ## Paths and their names -/

/-- A name that stands on a path has no slash in it. -/
def Plain (name : String) : Prop := '/' ∉ name.toList

theorem keyOf_pathNames (path : String) : keyOf (pathNames path) = path := by
  rw [← String.toList_inj, keyOf, pathNames, String.toList_intercalate, Text.fields_eq_splitOnP,
    ← List.splitOn_eq_splitOnP, List.map_map]
  simp [Function.comp_def, List.intercalate_splitOn]

theorem pathNames_keyOf {names : List String} (hne : names ≠ []) (hplain : ∀ name ∈ names, Plain name) :
    pathNames (keyOf names) = names := by
  have hsplit : (keyOf names).toList.splitOn '/' = names.map String.toList := by
    rw [keyOf, String.toList_intercalate]
    exact List.splitOn_intercalate '/' (by simpa [Plain] using hplain) (by simpa using hne)
  rw [pathNames, Text.fields_eq_splitOnP, ← List.splitOn_eq_splitOnP, hsplit, List.map_map]
  simp [Function.comp_def]

theorem plain_of_mem_pathNames {path name : String} (h : name ∈ pathNames path) : Plain name := by
  intro hslash
  obtain ⟨cs, hcs, rfl⟩ := List.mem_map.mp h
  rw [String.toList_ofList] at hslash
  exact absurd (Text.eq_false_of_mem_fields hcs hslash) (by simp)

theorem mem_of_mem_resolveFrom {names path : List String} {name : String} (h : name ∈ resolveFrom names path) :
    name ∈ names ∨ name ∈ path := by
  induction path generalizing names with
  | nil => exact .inl h
  | cons first path ih =>
    rw [resolveFrom] at h
    split at h
    · exact (ih h).imp_right (List.mem_cons_of_mem first)
    · split at h
      · rcases ih h with hmem | hmem
        · exact .inl (List.mem_of_mem_tail hmem)
        · exact .inr (List.mem_cons_of_mem first hmem)
      · rcases ih h with hmem | hmem
        · rcases List.mem_cons.mp hmem with rfl | hmem
          · exact .inr List.mem_cons_self
          · exact .inl hmem
        · exact .inr (List.mem_cons_of_mem first hmem)

theorem plain_of_mem_resolve {path name : String} (h : name ∈ resolve path) : Plain name := by
  rcases mem_of_mem_resolveFrom (List.mem_reverse.mp h) with hmem | hmem
  · cases hmem
  · exact plain_of_mem_pathNames hmem

/-! ## Listings -/

/-- The path of the entry of this name in a directory. -/
def below (directory name : String) : String := keyOf (resolve directory ++ [name])

/-- The directory has a file of this name. -/
def HasFile (f : Files) (directory name : String) : Prop :=
  Plain name ∧ ∃ text, f.entries.find? (below directory name) = some (.file text)

theorem pathNames_below {directory name : String} (h : Plain name) :
    pathNames (below directory name) = resolve directory ++ [name] := by
  refine pathNames_keyOf (by simp) fun name' hname' => ?_
  rcases List.mem_append.mp hname' with hmem | hmem
  · exact plain_of_mem_resolve hmem
  · exact List.mem_singleton.mp hmem ▸ h

theorem fileName?_eq_some_iff {directory path name : String} {entry : FileEntry} :
    fileName? (resolve directory) (path, entry) = some name ↔
      Plain name ∧ (∃ text, entry = .file text) ∧ path = below directory name := by
  cases entry with
  | directory => simp [fileName?]
  | file text =>
    constructor
    · intro h
      obtain ⟨hparent, hlast⟩ := Option.ite_none_right_eq_some.mp h
      have hnames : pathNames path = resolve directory ++ [name] := by
        rw [← hparent, List.dropLast_append_getLast? name hlast]
      refine ⟨plain_of_mem_pathNames (List.mem_of_getLast? hlast), ⟨text, rfl⟩, ?_⟩
      rw [below, ← hnames, keyOf_pathNames]
    · intro hex
      obtain ⟨hplain, -, rfl⟩ := hex
      rw [fileName?, pathNames_below hplain, List.dropLast_concat, List.getLast?_concat, if_pos rfl]

variable {f : Files} {directory : String} {names : List String}

theorem mem_filesIn_iff (h : f.filesIn? directory = some names) {name : String} :
    name ∈ names ↔ f.HasFile directory name := by
  obtain ⟨-, hnames⟩ := Option.ite_none_right_eq_some.mp h
  rw [← Option.some.inj hnames, List.mem_filterMap, HasFile]
  constructor
  · intro ⟨⟨path, entry⟩, hmem, hname⟩
    obtain ⟨hplain, ⟨text, rfl⟩, rfl⟩ := fileName?_eq_some_iff.mp hname
    exact ⟨hplain, text, Dict.find?_eq_some_iff.mpr hmem⟩
  · intro ⟨hplain, text, hfind⟩
    exact ⟨_, Dict.find?_eq_some_iff.mp hfind, fileName?_eq_some_iff.mpr ⟨hplain, ⟨text, rfl⟩, rfl⟩⟩

/-- What all the paths of a directory's entries begin with. -/
theorem exists_below_eq (directory : String) : ∃ start : String, ∀ name, below directory name = start ++ name := by
  by_cases hne : resolve directory = []
  · exact ⟨"", fun name => by simp [below, keyOf, hne]⟩
  · refine ⟨keyOf (resolve directory) ++ "/", fun name => ?_⟩
    rw [below, keyOf, String.intercalate_append_of_ne_nil hne (by simp), String.intercalate_singleton]
    rfl

theorem below_lt_below {name name' : String} (h : name < name') : below directory name < below directory name' := by
  obtain ⟨start, hstart⟩ := exists_below_eq directory
  rw [hstart, hstart, String.lt_iff_toList_lt, String.toList_append, String.toList_append]
  exact List.append_left_lt (String.lt_iff_toList_lt.mp h)

theorem lt_of_below_lt_below {name name' : String} (h : below directory name < below directory name') :
    name < name' := by
  rcases lt_trichotomy name name' with hlt | rfl | hgt
  · exact hlt
  · exact absurd h (lt_irrefl _)
  · exact absurd (h.trans (below_lt_below hgt)) (lt_irrefl _)

theorem sorted_filesIn (h : f.filesIn? directory = some names) : names.Pairwise (· < ·) := by
  obtain ⟨-, hnames⟩ := Option.ite_none_right_eq_some.mp h
  rw [← Option.some.inj hnames]
  refine List.Pairwise.filterMap _ ?_ f.entries.sorted
  intro ⟨path, entry⟩ ⟨path', entry'⟩ hlt name hname name' hname'
  obtain ⟨-, -, rfl⟩ := fileName?_eq_some_iff.mp hname
  obtain ⟨-, -, rfl⟩ := fileName?_eq_some_iff.mp hname'
  exact lt_of_below_lt_below hlt

end Files

end Repartee
