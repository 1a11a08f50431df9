import Mathlib.Algebra.GroupWithZero.Nat
import Mathlib.Data.List.Nodup

/-!
A keyed table: a list of rows in which no two rows have the same key. The key
constraint is part of the type, so every function that returns a table keeps
it. `insert` refuses a duplicate key; `modify` rewrites the row of one key and
drops a rewrite that would move the row to another key; `put` is an upsert,
`keep` deletes the rows that fail a test and `rewrite` changes rows in place.
-/

namespace Library

structure Table {κ ρ : Type} (key : ρ → κ) where
  rows : List ρ
  unique : (rows.map key).Nodup

namespace Table

variable {κ ρ : Type} {key : ρ → κ}

def empty : Table key := ⟨[], List.nodup_nil⟩

variable [DecidableEq κ]

def find? (table : Table key) (wanted : κ) : Option ρ :=
  table.rows.find? fun row => key row == wanted

def contains (table : Table key) (wanted : κ) : Bool := (table.find? wanted).isSome

/-- The rewrite of one row that keeps the primary key. -/
def rekeyed (key : ρ → κ) (change : ρ → ρ) (row : ρ) : ρ :=
  if key (change row) = key row then change row else row

theorem key_rekeyed (change : ρ → ρ) (row : ρ) : key (rekeyed key change row) = key row := by
  unfold rekeyed
  split
  · assumption
  · rfl

theorem rekeyed_of_key {change : ρ → ρ} {row : ρ} (same : key (change row) = key row) :
    rekeyed key change row = change row := if_pos same

def changeAt (key : ρ → κ) (wanted : κ) (change : ρ → ρ) (row : ρ) : ρ :=
  if key row = wanted then rekeyed key change row else row

theorem key_changeAt (wanted : κ) (change : ρ → ρ) (row : ρ) :
    key (changeAt key wanted change row) = key row := by
  unfold changeAt
  split
  · exact key_rekeyed change row
  · rfl

def modify (table : Table key) (wanted : κ) (change : ρ → ρ) : Table key where
  rows := table.rows.map (changeAt key wanted change)
  unique := by
    have same : key ∘ changeAt key wanted change = key :=
      funext (key_changeAt wanted change)
    simpa [List.map_map, same] using table.unique

theorem find?_eq_none (table : Table key) (wanted : κ) :
    table.find? wanted = none ↔ wanted ∉ table.rows.map key := by
  simp [find?]

theorem find?_key {table : Table key} {wanted : κ} {row : ρ}
    (found : table.find? wanted = some row) : key row = wanted := by
  simpa using List.find?_some found

theorem find?_mem {table : Table key} {wanted : κ} {row : ρ}
    (found : table.find? wanted = some row) : row ∈ table.rows :=
  List.mem_of_find?_eq_some found

theorem find?_of_mem {rows : List ρ} (unique : (rows.map key).Nodup) {row : ρ}
    (member : row ∈ rows) : rows.find? (fun other => key other == key row) = some row := by
  induction rows with
  | nil => simp at member
  | cons head rest ih =>
      simp only [List.map_cons, List.nodup_cons] at unique
      by_cases same : key head = key row
      · rcases List.mem_cons.mp member with first | later
        · subst first
          simp
        · exact absurd (List.mem_map.mpr ⟨row, later, same.symm⟩) unique.1
      · have later : row ∈ rest := by
          rcases List.mem_cons.mp member with first | later
          · exact absurd (congrArg key first.symm) same
          · exact later
        simpa [List.find?_cons, same] using ih unique.2 later

theorem mem_iff_find? (table : Table key) (row : ρ) :
    row ∈ table.rows ↔ table.find? (key row) = some row :=
  ⟨fun member => find?_of_mem table.unique member, find?_mem⟩

theorem eq_of_key_eq {table : Table key} {left right : ρ} (inLeft : left ∈ table.rows)
    (inRight : right ∈ table.rows) (same : key left = key right) : left = right := by
  have atLeft := (mem_iff_find? table left).mp inLeft
  have atRight := (mem_iff_find? table right).mp inRight
  rw [same, atRight] at atLeft
  exact (Option.some.inj atLeft).symm

def insert (table : Table key) (row : ρ) : Option (Table key) :=
  if fresh : key row ∉ table.rows.map key then
    some
      { rows := table.rows ++ [row]
        unique := by
          rw [List.map_append, List.map_singleton]
          exact List.nodup_append.mpr
            ⟨table.unique, List.nodup_singleton _, by
              intro left inTable right inRow same
              rw [List.mem_singleton] at inRow
              exact fresh (by rw [← inRow, ← same]; exact inTable)⟩ }
  else none

theorem insert_fresh {table next : Table key} {row : ρ}
    (inserted : table.insert row = some next) : table.find? (key row) = none := by
  rw [find?_eq_none]
  unfold insert at inserted
  split at inserted
  · assumption
  · cases inserted

theorem insert_rows {table next : Table key} {row : ρ}
    (inserted : table.insert row = some next) : next.rows = table.rows ++ [row] := by
  unfold insert at inserted
  split at inserted
  · cases inserted
    rfl
  · cases inserted

theorem insert_of_fresh {table : Table key} {row : ρ} (fresh : table.find? (key row) = none) :
    ∃ next, table.insert row = some next := by
  rw [find?_eq_none] at fresh
  simp [insert, fresh]

theorem insert_eq_none (table : Table key) (row : ρ) :
    table.insert row = none ↔ ∃ other, table.find? (key row) = some other := by
  constructor
  · intro refused
    cases found : table.find? (key row) with
    | some other => exact ⟨other, rfl⟩
    | none =>
        obtain ⟨next, inserted⟩ := insert_of_fresh found
        rw [refused] at inserted
        cases inserted
  · rintro ⟨other, found⟩
    cases inserted : table.insert row with
    | none => rfl
    | some next =>
        rw [insert_fresh inserted] at found
        cases found

theorem find?_insert {table next : Table key} {row : ρ}
    (inserted : table.insert row = some next) (wanted : κ) :
    next.find? wanted = if key row = wanted then some row else table.find? wanted := by
  have fresh := (find?_eq_none table _).mp (insert_fresh inserted)
  simp only [find?, insert_rows inserted, List.find?_append, List.find?_singleton, beq_iff_eq]
  by_cases same : key row = wanted
  · have absent : table.rows.find? (fun other => key other == wanted) = none := by
      simpa [find?, same] using insert_fresh inserted
    simp [same, absent]
  · simp [same]

theorem mem_insert {table next : Table key} {row : ρ}
    (inserted : table.insert row = some next) (other : ρ) :
    other ∈ next.rows ↔ other ∈ table.rows ∨ other = row := by
  simp [insert_rows inserted]

theorem find?_modify (table : Table key) (wanted other : κ) (change : ρ → ρ) :
    (table.modify wanted change).find? other =
      if other = wanted then (table.find? other).map (rekeyed key change)
      else table.find? other := by
  have shape : (fun row => key row == other) ∘ changeAt key wanted change =
      fun row => key row == other := by
    funext row
    simp [key_changeAt]
  simp only [find?, modify, List.find?_map, shape]
  cases found : table.rows.find? (fun row => key row == other) with
  | none => simp
  | some row =>
      have atKey : key row = other := by simpa using List.find?_some found
      by_cases same : other = wanted <;> simp [changeAt, atKey, same]

theorem find?_modify_self (table : Table key) (wanted : κ) (change : ρ → ρ)
    (keeps : ∀ row, key (change row) = key row) :
    (table.modify wanted change).find? wanted = (table.find? wanted).map change := by
  rw [find?_modify, if_pos rfl]
  cases table.find? wanted with
  | none => rfl
  | some row => simp [rekeyed_of_key (keeps row)]

theorem find?_modify_ne (table : Table key) {wanted other : κ} (change : ρ → ρ)
    (different : other ≠ wanted) :
    (table.modify wanted change).find? other = table.find? other := by
  rw [find?_modify, if_neg different]

theorem mem_modify {table : Table key} {wanted : κ} {change : ρ → ρ} {row : ρ}
    (keeps : ∀ row, key (change row) = key row)
    (member : row ∈ (table.modify wanted change).rows) :
    (row ∈ table.rows ∧ key row ≠ wanted) ∨
      ∃ old, table.find? wanted = some old ∧ row = change old := by
  have found := (mem_iff_find? _ row).mp member
  by_cases same : key row = wanted
  · rw [same, find?_modify_self table wanted change keeps] at found
    obtain ⟨old, atOld, shape⟩ := Option.map_eq_some_iff.mp found
    exact Or.inr ⟨old, atOld, shape.symm⟩
  · rw [find?_modify_ne table change same] at found
    exact Or.inl ⟨find?_mem found, same⟩

theorem mem_modify_of_ne {table : Table key} {wanted : κ} {row : ρ} (change : ρ → ρ)
    (member : row ∈ table.rows) (different : key row ≠ wanted) :
    row ∈ (table.modify wanted change).rows := by
  have found := (mem_iff_find? table row).mp member
  exact find?_mem (by rw [find?_modify_ne table change different]; exact found)

omit [DecidableEq κ] in
theorem ext_rows {left right : Table key} (same : left.rows = right.rows) : left = right := by
  cases left
  cases right
  cases same
  rfl

theorem modify_absent {table : Table key} {wanted : κ} (change : ρ → ρ)
    (absent : table.find? wanted = none) : table.modify wanted change = table := by
  rw [find?_eq_none] at absent
  apply ext_rows
  have same : ∀ row ∈ table.rows, changeAt key wanted change row = row := by
    intro row inside
    have apart : key row ≠ wanted := fun here =>
      absent (List.mem_map.mpr ⟨row, inside, here⟩)
    simp [changeAt, apart]
  exact (List.map_congr_left same).trans (List.map_id' table.rows)

theorem modify_self (table : Table key) (wanted : κ) :
    table.modify wanted (fun row => row) = table := by
  apply ext_rows
  have same : changeAt key wanted (fun row => row) = fun row => row := by
    funext row
    simp [changeAt, rekeyed]
  simp [modify, same]

/-- Two rewrites of one row are the rewrite by both. -/
theorem modify_modify (table : Table key) (wanted : κ) {first second : ρ → ρ}
    (keepsFirst : ∀ row, key (first row) = key row)
    (keepsSecond : ∀ row, key (second row) = key row) :
    (table.modify wanted first).modify wanted second =
      table.modify wanted fun row => second (first row) := by
  apply ext_rows
  simp only [modify, List.map_map]
  apply List.map_congr_left
  intro row _
  simp only [Function.comp_apply, changeAt]
  by_cases here : key row = wanted
  · simp [here, rekeyed, keepsFirst, keepsSecond]
  · simp [here]

def put (table : Table key) (row : ρ) : Table key :=
  match table.insert row with
  | some next => next
  | none => table.modify (key row) fun _ => row

theorem find?_put (table : Table key) (row : ρ) (wanted : κ) :
    (table.put row).find? wanted = if key row = wanted then some row else table.find? wanted := by
  unfold put
  cases inserted : table.insert row with
  | some next => exact find?_insert inserted wanted
  | none =>
      obtain ⟨old, found⟩ := (insert_eq_none table row).mp inserted
      have sameKey := find?_key found
      rw [find?_modify]
      by_cases same : key row = wanted
      · simp [← same, found, rekeyed, sameKey]
      · simp [same, Ne.symm same]

def keep (table : Table key) (test : ρ → Bool) : Table key where
  rows := table.rows.filter test
  unique := table.unique.sublist (List.filter_sublist.map key)

theorem find?_keep (table : Table key) (test : ρ → Bool) (wanted : κ) :
    (table.keep test).find? wanted = (table.find? wanted).filter test := by
  cases found : table.find? wanted with
  | none =>
      rw [find?_eq_none] at found
      rw [Option.filter_none, find?_eq_none]
      intro inside
      obtain ⟨row, member, same⟩ := List.mem_map.mp inside
      exact found (List.mem_map.mpr ⟨row, (List.mem_filter.mp member).1, same⟩)
  | some row =>
      have key := find?_key found
      by_cases passes : test row = true
      · rw [Option.filter_some_pos passes, ← key, ← mem_iff_find?]
        exact List.mem_filter.mpr ⟨find?_mem found, passes⟩
      · rw [Option.filter_some_neg (by simpa using passes), find?_eq_none]
        intro inside
        obtain ⟨other, member, same⟩ := List.mem_map.mp inside
        obtain ⟨older, passed⟩ := List.mem_filter.mp member
        have equal := eq_of_key_eq older (find?_mem found) (same.trans key.symm)
        exact passes (equal ▸ passed)

def delete (table : Table key) (wanted : κ) : Table key := table.keep fun row => key row != wanted

theorem find?_delete (table : Table key) (wanted other : κ) :
    (table.delete wanted).find? other = if other = wanted then none else table.find? other := by
  rw [delete, find?_keep]
  cases found : table.find? other with
  | none => simp
  | some row =>
      have key := find?_key found
      by_cases same : other = wanted <;> simp [Option.filter, key, same]

theorem length_modify (table : Table key) (wanted : κ) (change : ρ → ρ) :
    (table.modify wanted change).rows.length = table.rows.length := by
  simp [modify]

theorem length_put_fresh {table : Table key} {row : ρ} (fresh : table.find? (key row) = none) :
    (table.put row).rows.length = table.rows.length + 1 := by
  obtain ⟨next, inserted⟩ := insert_of_fresh fresh
  simp [put, inserted, insert_rows inserted]

theorem length_filter_key {rows : List ρ} (unique : (rows.map key).Nodup) {row : ρ}
    (member : row ∈ rows) :
    (rows.filter fun other => key other != key row).length + 1 = rows.length := by
  induction rows with
  | nil => simp at member
  | cons head rest ih =>
      simp only [List.map_cons, List.nodup_cons] at unique
      by_cases same : key head = key row
      · have others : rest.filter (fun other => key other != key row) = rest := by
          apply List.filter_eq_self.mpr
          intro other inside
          have apart : key other ≠ key row := fun equal =>
            unique.1 (same ▸ equal ▸ List.mem_map.mpr ⟨other, inside, rfl⟩)
          simpa using apart
        simp [same, others]
      · have later : row ∈ rest := by
          rcases List.mem_cons.mp member with first | later
          · exact absurd (congrArg key first.symm) same
          · exact later
        simpa [List.filter_cons, same] using ih unique.2 later

theorem length_delete {table : Table key} {wanted : κ} {row : ρ}
    (found : table.find? wanted = some row) :
    (table.delete wanted).rows.length + 1 = table.rows.length := by
  have shape := length_filter_key table.unique (find?_mem found)
  rw [find?_key found] at shape
  exact shape

def rewrite (table : Table key) (change : ρ → ρ) : Table key where
  rows := table.rows.map (rekeyed key change)
  unique := by
    have same : key ∘ rekeyed key change = key := funext (key_rekeyed change)
    simpa [List.map_map, same] using table.unique

theorem find?_rewrite (table : Table key) (change : ρ → ρ) (keeps : ∀ row, key (change row) = key row)
    (wanted : κ) : (table.rewrite change).find? wanted = (table.find? wanted).map change := by
  have shape : (fun row => key row == wanted) ∘ rekeyed key change = fun row => key row == wanted := by
    funext row
    simp [key_rekeyed]
  have plain : rekeyed key change = change := funext fun row => rekeyed_of_key (keeps row)
  simp only [find?, rewrite, List.find?_map, shape]
  rw [plain]

theorem mem_rewrite (table : Table key) {change : ρ → ρ} (keeps : ∀ row, key (change row) = key row)
    (row : ρ) : row ∈ (table.rewrite change).rows ↔ ∃ old ∈ table.rows, change old = row := by
  have plain : rekeyed key change = change := funext fun row => rekeyed_of_key (keeps row)
  simp [rewrite, plain]

end Table

end Library
