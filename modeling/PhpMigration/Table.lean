/-
Tables: values filed under names, in the order in which the names first came.

Filing a value under a name that is already there replaces the value and keeps the place, so a
table lists each name once as long as it is built by `set` alone.
-/

namespace PhpMigration

/-- Values filed under names. -/
abbrev Table (α : Type) := List (String × α)

namespace Table

variable {α : Type}

/-- The value filed under a name. -/
def find? (t : Table α) (name : String) : Option α := t.lookup name

/-- Something is filed under the name. -/
def has (t : Table α) (name : String) : Bool := (t.find? name).isSome

/-- The table with a value filed under a name. -/
def set (name : String) (value : α) : Table α → Table α
  | [] => [(name, value)]
  | (n, v) :: rest => if n = name then (n, value) :: rest else (n, v) :: set name value rest

/-- The table with nothing filed under a name. -/
def erase (name : String) (t : Table α) : Table α := t.filter fun entry => entry.1 ≠ name

/-- The table with all values of another one filed in it. -/
def update (t more : Table α) : Table α := more.foldl (fun t entry => t.set entry.1 entry.2) t

/-- The names, in order. -/
def names (t : Table α) : List String := t.map (·.1)

/-- Nothing is filed under any other name than those given. -/
def isWithin (names : List String) (t : Table α) : Bool := t.all fun entry => names.contains entry.1

/-- The table in the order of its names. -/
def sorted (t : Table α) : Table α := t.mergeSort fun a b => decide (a.1 ≤ b.1)

theorem find?_cons (n : String) (v : α) (rest : Table α) (name : String) :
    find? ((n, v) :: rest) name = if name = n then some v else rest.find? name := by
  unfold find?
  rw [List.lookup_cons]
  by_cases h : name = n
  · simp [h]
  · have hb : (name == n) = false := by simpa using h
    simp [h, hb]

theorem find?_set (t : Table α) (name other : String) (value : α) :
    (t.set name value).find? other = if other = name then some value else t.find? other := by
  induction t with
  | nil => rw [set, find?_cons]
  | cons entry rest ih =>
    obtain ⟨n, v⟩ := entry
    by_cases hn : n = name
    · subst hn
      by_cases h : other = n <;> simp [set, find?_cons, h]
    · by_cases h : other = n
      · simp [set, find?_cons, hn, h]
      · simp [set, find?_cons, hn, h, ih]

theorem find?_erase (t : Table α) (name other : String) :
    (t.erase name).find? other = if other = name then none else t.find? other := by
  induction t with
  | nil => simp [erase, find?]
  | cons entry rest ih =>
    obtain ⟨n, v⟩ := entry
    simp only [erase] at ih ⊢
    by_cases hn : n = name
    · by_cases h : other = name <;> simp_all [find?_cons]
    · by_cases h : other = n <;> simp_all [find?_cons]

theorem has_iff_mem_names (t : Table α) (name : String) : t.has name = true ↔ name ∈ t.names := by
  unfold has names
  induction t with
  | nil => simp [find?]
  | cons entry rest ih =>
    obtain ⟨n, v⟩ := entry
    rw [find?_cons]
    by_cases h : name = n
    · simp [h]
    · rw [if_neg h, ih]
      simp [h]

theorem mem_of_find? {t : Table α} {name : String} {value : α} (h : t.find? name = some value) :
    (name, value) ∈ t := by
  obtain ⟨front, back, rfl, -⟩ := List.lookup_eq_some_iff.mp h
  simp

theorem mem_set {t : Table α} {name : String} {value : α} {entry : String × α}
    (h : entry ∈ t.set name value) : entry = (name, value) ∨ entry ∈ t := by
  induction t with
  | nil => exact .inl (List.mem_singleton.mp h)
  | cons first rest ih =>
    obtain ⟨n, v⟩ := first
    rw [set] at h
    by_cases hn : n = name
    · subst hn
      rw [if_pos rfl] at h
      rcases List.mem_cons.mp h with rfl | h
      · exact .inl rfl
      · exact .inr (List.mem_cons_of_mem _ h)
    · rw [if_neg hn] at h
      rcases List.mem_cons.mp h with rfl | h
      · exact .inr List.mem_cons_self
      · exact (ih h).imp_right (List.mem_cons_of_mem _)

theorem names_set_of_mem {t : Table α} {name : String} (h : name ∈ t.names) (value : α) :
    (t.set name value).names = t.names := by
  induction t with
  | nil => cases h
  | cons first rest ih =>
    obtain ⟨n, v⟩ := first
    rw [set]
    by_cases hn : n = name
    · rw [if_pos hn]
      rfl
    · rw [if_neg hn]
      have hrest := (List.mem_cons.mp h).resolve_left (Ne.symm hn)
      exact congrArg (n :: ·) (ih hrest)

/-- Filing what is there changes nothing. -/
theorem set_of_find? {t : Table α} {name : String} {value : α} (h : t.find? name = some value) :
    t.set name value = t := by
  induction t with
  | nil => cases h
  | cons first rest ih =>
    obtain ⟨n, v⟩ := first
    rw [find?_cons] at h
    rw [set]
    by_cases hn : name = n
    · rw [if_pos hn] at h
      rw [if_pos hn.symm, Option.some.inj h]
    · rw [if_neg hn] at h
      rw [if_neg (Ne.symm hn), ih h]

/-! ### Tables without a name twice -/

theorem set_of_not_mem {t : Table α} {name : String} (h : name ∉ t.names) (value : α) :
    t.set name value = t ++ [(name, value)] := by
  induction t with
  | nil => rfl
  | cons entry rest ih =>
      obtain ⟨n, v⟩ := entry
      have hne : ¬ n = name := fun heq => h (by rw [heq]; exact List.mem_cons_self)
      rw [set, if_neg hne, ih fun hrest => h (List.mem_cons_of_mem _ hrest)]
      rfl

theorem nodup_names_set {t : Table α} (h : t.names.Nodup) (name : String) (value : α) :
    (t.set name value).names.Nodup := by
  by_cases hname : name ∈ t.names
  · rwa [names_set_of_mem hname]
  · rw [set_of_not_mem hname, names, List.map_append]
    refine List.nodup_append.mpr ⟨h, by simp, ?_⟩
    rintro a ha b hb rfl
    rw [List.mem_singleton.mp hb] at ha
    exact hname ha

theorem update_of_nodup (t more : Table α) (h : (t ++ more).names.Nodup) :
    t.update more = t ++ more := by
  induction more generalizing t with
  | nil => exact (List.append_nil t).symm
  | cons entry rest ih =>
      obtain ⟨name, value⟩ := entry
      have hnames : t.names ++ name :: names rest = names (t ++ (name, value) :: rest) := by
        unfold names
        rw [List.map_append]
        rfl
      have hfresh : name ∉ t.names := by
        rw [← hnames] at h
        exact fun hmem => (List.nodup_append.mp h).2.2 name hmem name List.mem_cons_self rfl
      show (t.set name value).update rest = _
      rw [set_of_not_mem hfresh, ih, List.append_assoc]
      · rfl
      · rw [List.append_assoc]
        exact h

end Table

end PhpMigration
