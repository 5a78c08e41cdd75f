set_option autoImplicit false

namespace BuildCapture

/-- Values under names, in strictly increasing order of the names. -/
structure NameMap (α : Type) where
  entries : List (String × α)
  sorted : entries.Pairwise (·.1 < ·.1)
  deriving DecidableEq

namespace NameMap

variable {α : Type}

def insertEntry (name : String) (value : α) : List (String × α) → List (String × α)
  | [] => [(name, value)]
  | (other, kept) :: rest =>
    if name < other then (name, value) :: (other, kept) :: rest
    else if name = other then (name, value) :: rest
    else (other, kept) :: insertEntry name value rest

theorem mem_insertEntry {name : String} {value : α} {e : String × α} {l : List (String × α)}
    (h : e ∈ insertEntry name value l) : e = (name, value) ∨ e ∈ l := by
  fun_induction insertEntry name value l <;> grind

theorem sorted_insertEntry (name : String) (value : α) {l : List (String × α)}
    (h : l.Pairwise (·.1 < ·.1)) : (insertEntry name value l).Pairwise (·.1 < ·.1) := by
  fun_induction insertEntry name value l with
  | case1 => simp
  | case2 other kept rest lt =>
    refine List.pairwise_cons.2 ⟨fun e he => ?_, h⟩
    rcases List.mem_cons.1 he with rfl | he
    · exact lt
    · exact String.lt_trans lt ((List.pairwise_cons.1 h).1 e he)
  | case3 kept rest =>
    exact List.pairwise_cons.2 ⟨(List.pairwise_cons.1 h).1, (List.pairwise_cons.1 h).2⟩
  | case4 other kept rest nlt ne ih =>
    refine List.pairwise_cons.2 ⟨fun e he => ?_, ih (List.pairwise_cons.1 h).2⟩
    rcases mem_insertEntry he with rfl | he
    · exact Std.lt_of_le_of_ne (String.not_lt.1 nlt) (Ne.symm ne)
    · exact (List.pairwise_cons.1 h).1 e he

def empty : NameMap α := ⟨[], .nil⟩

instance : EmptyCollection (NameMap α) := ⟨empty⟩

instance : Inhabited (NameMap α) := ⟨empty⟩

def get? (m : NameMap α) (name : String) : Option α := m.entries.lookup name

def contains (m : NameMap α) (name : String) : Bool := (m.get? name).isSome

def size (m : NameMap α) : Nat := m.entries.length

def names (m : NameMap α) : List String := m.entries.map Prod.fst

def insert (m : NameMap α) (name : String) (value : α) : NameMap α :=
  ⟨insertEntry name value m.entries, sorted_insertEntry name value m.sorted⟩

def erase (m : NameMap α) (name : String) : NameMap α :=
  ⟨m.entries.filter (·.1 ≠ name), m.sorted.filter _⟩

/-- Of two values under one name the later stays. -/
def insertAll (m : NameMap α) (entries : List (String × α)) : NameMap α :=
  entries.foldl (fun m e => m.insert e.1 e.2) m

def ofList (entries : List (String × α)) : NameMap α := empty.insertAll entries

/-- Both maps in one; the second one's values stand where both have a name. -/
instance : Append (NameMap α) := ⟨fun m n => m.insertAll n.entries⟩

end NameMap

structure NameSet where
  marks : NameMap Unit
  deriving DecidableEq

namespace NameSet

def empty : NameSet := ⟨.empty⟩

instance : EmptyCollection NameSet := ⟨empty⟩

instance : Inhabited NameSet := ⟨empty⟩

def toList (s : NameSet) : List String := s.marks.names

def contains (s : NameSet) (name : String) : Bool := s.marks.contains name

def ofList (names : List String) : NameSet := ⟨.ofList (names.map (·, ()))⟩

end NameSet

def NameMap.without {α : Type} (m : NameMap α) (s : NameSet) : NameMap α :=
  s.toList.foldl NameMap.erase m

end BuildCapture
