import BuildCapture.Names.NameMap
set_option autoImplicit false

namespace BuildCapture.NameMap

variable {α : Type}

@[simp] theorem get?_empty (name : String) : (∅ : NameMap α).get? name = none := rfl

theorem lookup_cons_entry (name : String) (e : String × α) (l : List (String × α)) :
    (e :: l).lookup name = if name = e.1 then some e.2 else l.lookup name := by
  obtain ⟨other, value⟩ := e
  rw [List.lookup_cons]
  by_cases h : name = other
  · simp [h]
  · simp [h, beq_false_of_ne h]

theorem lookup_insertEntry (name other : String) (value : α) (l : List (String × α)) :
    (insertEntry name value l).lookup other =
      if other = name then some value else l.lookup other := by
  fun_induction insertEntry name value l <;> grind [lookup_cons_entry]

@[simp] theorem get?_insert (m : NameMap α) (name other : String) (value : α) :
    (m.insert name value).get? other = if other = name then some value else m.get? other :=
  lookup_insertEntry name other value m.entries

theorem lookup_filter_ne (name other : String) (l : List (String × α)) :
    (l.filter (·.1 ≠ name)).lookup other = if other = name then none else l.lookup other := by
  induction l with
  | nil => simp
  | cons e rest ih => grind [lookup_cons_entry]

@[simp] theorem get?_erase (m : NameMap α) (name other : String) :
    (m.erase name).get? other = if other = name then none else m.get? other :=
  lookup_filter_ne name other m.entries

/-- Of the entries under a name the last one counts. -/
theorem get?_insertAll (m : NameMap α) (entries : List (String × α)) (name : String) :
    (m.insertAll entries).get? name = (entries.reverse.lookup name).or (m.get? name) := by
  induction entries generalizing m with
  | nil => rfl
  | cons e rest ih =>
    simp only [insertAll, List.foldl_cons] at ih ⊢
    rw [ih, get?_insert, List.reverse_cons, List.lookup_append]
    grind [lookup_cons_entry]

theorem lookup_eq_none_of_ne {name : String} {l : List (String × α)} (h : ∀ e ∈ l, e.1 ≠ name) :
    l.lookup name = none := by
  induction l with
  | nil => rfl
  | cons e rest ih => grind [lookup_cons_entry]

theorem lookup_reverse_of_sorted {l : List (String × α)} (h : l.Pairwise (·.1 < ·.1))
    (name : String) : l.reverse.lookup name = l.lookup name := by
  induction l with
  | nil => rfl
  | cons e rest ih =>
    obtain ⟨least, sorted⟩ := List.pairwise_cons.1 h
    rw [List.reverse_cons, List.lookup_append, ih sorted]
    by_cases he : name = e.1
    · rw [lookup_eq_none_of_ne fun e' he' => by
        rintro rfl; exact String.lt_irrefl _ (he ▸ least e' he')]
      simp [lookup_cons_entry, he]
    · simp [lookup_cons_entry, he]

@[simp] theorem get?_append (m n : NameMap α) (name : String) :
    (m ++ n).get? name = (n.get? name).or (m.get? name) := by
  show (m.insertAll n.entries).get? name = _
  rw [get?_insertAll, lookup_reverse_of_sorted n.sorted]
  rfl

@[simp] theorem get?_foldl_erase (names : List String) (m : NameMap α) (name : String) :
    (names.foldl erase m).get? name = if name ∈ names then none else m.get? name := by
  induction names generalizing m with
  | nil => simp
  | cons other rest ih => rw [List.foldl_cons, ih, get?_erase]; grind

theorem mem_toList {s : NameSet} {name : String} : name ∈ s.toList ↔ s.contains name = true := by
  rw [NameSet.toList, NameSet.contains, contains, get?, List.lookup_isSome_iff]
  simp [names]

@[simp] theorem get?_without (m : NameMap α) (s : NameSet) (name : String) :
    (m.without s).get? name = if s.contains name then none else m.get? name := by
  rw [without, get?_foldl_erase]
  simp only [mem_toList]

theorem lookup_eq_none_of_lt {name : String} {l : List (String × α)} (h : ∀ e ∈ l, name < e.1) :
    l.lookup name = none :=
  lookup_eq_none_of_ne fun e he hn => String.lt_irrefl _ (hn ▸ h e he)

theorem not_lt_of_lookup {e e' : String × α} {rest rest' : List (String × α)}
    (h' : (e' :: rest').Pairwise (·.1 < ·.1))
    (same : (e :: rest).lookup e.1 = (e' :: rest').lookup e.1) : ¬ e.1 < e'.1 := by
  intro lt
  have above : ∀ x ∈ e' :: rest', e.1 < x.1 := by
    intro x hx
    rcases List.mem_cons.1 hx with rfl | hx
    · exact lt
    · exact String.lt_trans lt ((List.pairwise_cons.1 h').1 x hx)
  rw [lookup_eq_none_of_lt above] at same
  simp [lookup_cons_entry] at same

theorem eq_of_lookup {l l' : List (String × α)} (h : l.Pairwise (·.1 < ·.1))
    (h' : l'.Pairwise (·.1 < ·.1)) (same : ∀ name, l.lookup name = l'.lookup name) : l = l' := by
  induction l generalizing l' with
  | nil =>
    cases l' with
    | nil => rfl
    | cons e _ => simpa [lookup_cons_entry] using same e.1
  | cons e rest ih =>
    cases l' with
    | nil => simpa [lookup_cons_entry] using same e.1
    | cons e' rest' =>
      have key : e.1 = e'.1 :=
        Std.le_antisymm (String.not_lt.1 (not_lt_of_lookup h (same e'.1).symm))
          (String.not_lt.1 (not_lt_of_lookup h' (same e.1)))
      obtain ⟨name, value⟩ := e
      obtain ⟨name', value'⟩ := e'
      obtain rfl : name = name' := key
      obtain rfl : value = value' := by simpa [lookup_cons_entry] using same name
      obtain ⟨least, sorted⟩ := List.pairwise_cons.1 h
      obtain ⟨least', sorted'⟩ := List.pairwise_cons.1 h'
      rw [ih sorted sorted' fun other => ?_]
      by_cases ho : other = name
      · rw [ho, lookup_eq_none_of_lt least, lookup_eq_none_of_lt least']
      · simpa [lookup_cons_entry, ho] using same other

theorem ext_get? {m n : NameMap α} (same : ∀ name, m.get? name = n.get? name) : m = n := by
  obtain ⟨l, h⟩ := m
  obtain ⟨l', h'⟩ := n
  cases eq_of_lookup h h' same
  rfl

@[simp] theorem ofList_entries (m : NameMap α) : ofList m.entries = m :=
  ext_get? fun name => by
    rw [ofList, get?_insertAll, lookup_reverse_of_sorted m.sorted]
    exact Option.or_none

theorem lookup_eq_some_iff {l : List (String × α)}
    (single : ∀ e ∈ l, ∀ e' ∈ l, e.1 = e'.1 → e = e') {name : String} {value : α} :
    l.lookup name = some value ↔ (name, value) ∈ l := by
  induction l with
  | nil => simp
  | cons e l ih =>
    have later := ih fun e he e' he' => single e (.tail _ he) e' (.tail _ he')
    rw [lookup_cons_entry, List.mem_cons]
    split
    case isTrue same =>
      constructor
      · intro found
        exact .inl (Prod.ext same (Option.some.inj found).symm)
      · intro mem
        have first := single _ (List.mem_cons.2 mem) e List.mem_cons_self same
        exact congrArg some (congrArg Prod.snd first).symm
    case isFalse other =>
      rw [later]
      exact (or_iff_right fun same => other (congrArg Prod.fst same)).symm

theorem ofList_congr {l l' : List (String × α)} (single : ∀ e ∈ l, ∀ e' ∈ l, e.1 = e'.1 → e = e')
    (same : ∀ e, e ∈ l' ↔ e ∈ l) : ofList l' = ofList l := by
  refine ext_get? fun name => ?_
  rw [ofList, ofList, get?_insertAll, get?_insertAll]
  refine congrArg (Option.or · _) (Option.ext fun value => ?_)
  rw [lookup_eq_some_iff, lookup_eq_some_iff]
  · simp only [List.mem_reverse, same]
  · simpa only [List.mem_reverse] using single
  · simpa only [List.mem_reverse, same] using single

end BuildCapture.NameMap

namespace BuildCapture.NameSet

theorem ofList_congr {l l' : List String} (same : ∀ name, name ∈ l' ↔ name ∈ l) :
    ofList l' = ofList l := by
  refine congrArg NameSet.mk (NameMap.ofList_congr ?_ ?_)
  · intro e he e' he' name
    exact Prod.ext name rfl
  · intro e
    simp only [List.mem_map, same]

@[simp] theorem ofList_toList (s : NameSet) : ofList s.toList = s := by
  have entries : s.toList.map (·, ()) = s.marks.entries := by
    simp [toList, NameMap.names, Function.comp_def]
  rw [ofList, entries, NameMap.ofList_entries]

end BuildCapture.NameSet
