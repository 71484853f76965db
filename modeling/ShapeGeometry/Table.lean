/-!
Finite maps from names to values. A name has one entry, which keeps its place when its value is
replaced; a new name goes to the end.
-/

namespace ShapeGeometry

structure Table (α : Type) where
  entries : List (String × α)
  nodup : (entries.map Prod.fst).Nodup

namespace Table

variable {α : Type}

def put (name : String) (value : α) : List (String × α) → List (String × α)
  | [] => [(name, value)]
  | entry :: rest =>
    if entry.1 = name then (name, value) :: rest else entry :: put name value rest

theorem mem_put_names {name other : String} {value : α} {entries : List (String × α)} :
    other ∈ (put name value entries).map Prod.fst ↔ other = name ∨ other ∈ entries.map Prod.fst := by
  induction entries with
  | nil => simp [put]
  | cons entry rest ih =>
    by_cases h : entry.1 = name
    · simp [put, h]
    · simp only [put, h, if_false, List.map_cons, List.mem_cons, ih]
      exact or_left_comm

theorem nodup_put {name : String} {value : α} {entries : List (String × α)}
    (h : (entries.map Prod.fst).Nodup) : ((put name value entries).map Prod.fst).Nodup := by
  induction entries with
  | nil => simp [put]
  | cons entry rest ih =>
    obtain ⟨hn, hr⟩ := List.nodup_cons.mp h
    by_cases he : entry.1 = name
    · simp only [put, he, if_true, List.map_cons, List.nodup_cons]
      exact ⟨he ▸ hn, hr⟩
    · simp only [put, he, if_false, List.map_cons, List.nodup_cons]
      refine ⟨fun hm => ?_, ih hr⟩
      rcases mem_put_names.mp hm with hm | hm
      · exact he hm
      · exact hn hm

theorem lookup_entry (entry : String × α) (rest : List (String × α)) (name : String) :
    (entry :: rest).lookup name = if name = entry.1 then some entry.2 else rest.lookup name := by
  rw [List.lookup_cons]
  by_cases h : name = entry.1
  · simp [h]
  · simp [h, beq_eq_false_iff_ne.mpr h]

theorem lookup_put (name other : String) (value : α) (entries : List (String × α)) :
    (put name value entries).lookup other
      = if other = name then some value else entries.lookup other := by
  induction entries with
  | nil => simp [put, lookup_entry]
  | cons entry rest ih =>
    by_cases he : entry.1 = name
    · by_cases h : other = name <;> simp [put, lookup_entry, he, h]
    · rw [put, if_neg he, lookup_entry, lookup_entry, ih]
      by_cases h : other = name
      · subst h
        rw [if_neg (Ne.symm he), if_pos rfl, if_pos rfl]
      · simp [h]

def empty : Table α :=
  ⟨[], List.nodup_nil⟩

def find? (t : Table α) (name : String) : Option α :=
  t.entries.lookup name

def contains (t : Table α) (name : String) : Bool :=
  (t.find? name).isSome

/-- Gives a name a value in place of any it had. -/
def insert (t : Table α) (name : String) (value : α) : Table α :=
  ⟨put name value t.entries, nodup_put t.nodup⟩

/-- Inserts one pair after the other, so that the last one for a name counts. -/
def insertAll (t : Table α) (pairs : List (String × α)) : Table α :=
  pairs.foldl (fun table pair => table.insert pair.1 pair.2) t

def ofList (pairs : List (String × α)) : Table α :=
  empty.insertAll pairs

@[simp] theorem find?_empty (name : String) : (empty : Table α).find? name = none :=
  rfl

theorem find?_insert (t : Table α) (name other : String) (value : α) :
    (t.insert name value).find? other = if other = name then some value else t.find? other :=
  lookup_put name other value t.entries

@[simp] theorem insertAll_nil (t : Table α) : t.insertAll [] = t :=
  rfl

@[simp] theorem insertAll_cons (t : Table α) (pair : String × α) (pairs : List (String × α)) :
    t.insertAll (pair :: pairs) = (t.insert pair.1 pair.2).insertAll pairs :=
  rfl

theorem insertAll_append (t : Table α) (first second : List (String × α)) :
    t.insertAll (first ++ second) = (t.insertAll first).insertAll second :=
  List.foldl_append

/-- Of several pairs for a name the last one counts. -/
theorem find?_insertAll_last (t : Table α) (pairs : List (String × α)) (name : String) :
    (t.insertAll pairs).find? name = (pairs.reverse.lookup name).or (t.find? name) := by
  induction pairs generalizing t with
  | nil => rfl
  | cons pair pairs ih =>
    rw [insertAll_cons, ih, find?_insert, List.reverse_cons, List.lookup_append, Option.or_assoc,
      lookup_entry]
    by_cases h : name = pair.1
    · rw [if_pos h, if_pos h, Option.some_or]
    · rw [if_neg h, if_neg h, List.lookup_nil, Option.none_or]

/-- Of pairs with distinct names, each counts. -/
theorem find?_insertAll (t : Table α) {pairs : List (String × α)}
    (h : (pairs.map Prod.fst).Nodup) (name : String) :
    (t.insertAll pairs).find? name = (pairs.lookup name).or (t.find? name) := by
  induction pairs generalizing t with
  | nil => rfl
  | cons pair pairs ih =>
    obtain ⟨hn, hr⟩ := List.nodup_cons.mp h
    rw [insertAll_cons, ih _ hr, find?_insert, lookup_entry]
    by_cases he : name = pair.1
    · have hnone : pairs.lookup name = none := by
        apply List.lookup_eq_none_iff.mpr
        intro other hm
        have hne : name ≠ other.1 := by
          rintro rfl
          exact hn (List.mem_map.mpr ⟨other, hm, he⟩)
        simpa using hne
      rw [hnone, if_pos he, if_pos he]
      rfl
    · simp [he]

theorem find?_insertAll_of_notMem (t : Table α) {pairs : List (String × α)} {name : String}
    (h : name ∉ pairs.map Prod.fst) : (t.insertAll pairs).find? name = t.find? name := by
  induction pairs generalizing t with
  | nil => rfl
  | cons pair pairs ih =>
    rw [List.map_cons, List.mem_cons, not_or] at h
    rw [insertAll_cons, ih _ h.2, find?_insert, if_neg h.1]

theorem lookup_of_mem {entries : List (String × α)} (h : (entries.map Prod.fst).Nodup)
    {entry : String × α} (hm : entry ∈ entries) : entries.lookup entry.1 = some entry.2 := by
  induction entries with
  | nil => exact absurd hm List.not_mem_nil
  | cons first rest ih =>
    obtain ⟨hn, hr⟩ := List.nodup_cons.mp h
    rw [lookup_entry]
    rcases List.mem_cons.mp hm with rfl | hm
    · exact if_pos rfl
    · have hne : entry.1 ≠ first.1 := by
        intro he
        exact hn (he ▸ List.mem_map_of_mem hm)
      rw [if_neg hne]
      exact ih hr hm

theorem mem_of_lookup {entries : List (String × α)} {name : String} {value : α}
    (h : entries.lookup name = some value) : (name, value) ∈ entries := by
  obtain ⟨before, after, rfl, -⟩ := List.lookup_eq_some_iff.mp h
  exact List.mem_append_right before List.mem_cons_self

/-- The order of pairs with distinct names makes no difference. -/
theorem lookup_perm {first second : List (String × α)} (hp : first.Perm second)
    (h : (first.map Prod.fst).Nodup) (name : String) : first.lookup name = second.lookup name := by
  induction hp with
  | nil => rfl
  | cons pair hp ih =>
    rw [lookup_entry, lookup_entry, ih (List.nodup_cons.mp h).2]
  | swap pair next rest =>
    have hne : next.1 ≠ pair.1 := by
      intro he
      exact (List.nodup_cons.mp h).1 (by simp [he])
    simp only [lookup_entry]
    by_cases hn : name = next.1
    · rw [if_pos hn, if_pos hn, if_neg (hn ▸ hne)]
    · rw [if_neg hn, if_neg hn]
  | trans hp hq ihp ihq =>
    rw [ihp h, ihq ((hp.map Prod.fst).nodup_iff.mp h)]

end Table

end ShapeGeometry
