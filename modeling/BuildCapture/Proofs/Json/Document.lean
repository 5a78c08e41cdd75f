import BuildCapture.Proofs.Json.Literals
set_option autoImplicit false

/-!
Documents: the syntax trees of JSON texts, with their literals as they are written. Any text of a
document is scanned as the document's tree (`scanValue_text`). A text may hold blanks wherever a
reader passes over them.
-/

namespace BuildCapture.Json

inductive Document where
  | null
  | bool (value : Bool)
  | number (literal : NumberLiteral)
  | string (literal : Literal)
  | array (items : List Document)
  | object (members : List (Literal × Document))

def Blanks (s : List Char) : Prop := ∀ c ∈ s, isSpace c = true

theorem blanks_nil : Blanks [] := by simp [Blanks]

theorem dropSpace_append {gap : List Char} (h : Blanks gap) (s : List Char) :
    dropSpace (gap ++ s) = dropSpace s := List.dropWhile_append_of_pos h

theorem dropSpace_cons {c : Char} (h : isSpace c = false) (s : List Char) :
    dropSpace (c :: s) = c :: s := by simp [dropSpace, h]

/-- What stands before an item or a member: blanks, and a comma unless it is the first one. -/
def Gap : Bool → List Char → Prop
  | true, s => Blanks s
  | false, s => ∃ before after, Blanks before ∧ Blanks after ∧ s = before ++ ',' :: after

def Colon (s : List Char) : Prop :=
  ∃ before after, Blanks before ∧ Blanks after ∧ s = before ++ ':' :: after

theorem Colon.length_pos {s : List Char} (h : Colon s) : 0 < s.length := by
  obtain ⟨before, after, -, -, rfl⟩ := h
  simp only [List.length_append, List.length_cons]
  omega

theorem gap_wire (first : Bool) : Gap first (if first then [] else [',']) := by
  cases first with
  | true => exact blanks_nil
  | false => exact ⟨[], [], blanks_nil, blanks_nil, rfl⟩

theorem colon_wire : Colon [':'] := ⟨[], [], blanks_nil, blanks_nil, rfl⟩

namespace Document

def word : Bool → List Char
  | true => ['t', 'r', 'u', 'e']
  | false => ['f', 'a', 'l', 's', 'e']

mutual

/-- The texts of a document, without blanks around them. -/
def Spelled : Document → List Char → Prop
  | .null, s => s = ['n', 'u', 'l', 'l']
  | .bool b, s => s = word b
  | .number n, s => s = n.text
  | .string l, s => s = l.text
  | .array items, s => ∃ body, ItemsSpelled true items body ∧ s = '[' :: body
  | .object members, s => ∃ body, MembersSpelled true members body ∧ s = '\x7b' :: body

def ItemsSpelled : Bool → List Document → List Char → Prop
  | _, [], s => ∃ gap, Blanks gap ∧ s = gap ++ [']']
  | first, d :: rest, s =>
    ∃ gap t u, Gap first gap ∧ d.Spelled t ∧ ItemsSpelled false rest u ∧ s = gap ++ (t ++ u)

def MembersSpelled : Bool → List (Literal × Document) → List Char → Prop
  | _, [], s => ∃ gap, Blanks gap ∧ s = gap ++ ['\x7d']
  | first, (key, d) :: rest, s =>
    ∃ gap colon t u, Gap first gap ∧ Colon colon ∧ d.Spelled t ∧ MembersSpelled false rest u ∧
      s = gap ++ (key.text ++ (colon ++ (t ++ u)))

end

mutual

def wire : Document → List Char
  | .null => ['n', 'u', 'l', 'l']
  | .bool b => word b
  | .number n => n.text
  | .string l => l.text
  | .array items => '[' :: itemsWire true items
  | .object members => '\x7b' :: membersWire true members

def itemsWire : Bool → List Document → List Char
  | _, [] => [']']
  | first, d :: rest => (if first then [] else [',']) ++ (d.wire ++ itemsWire false rest)

def membersWire : Bool → List (Literal × Document) → List Char
  | _, [] => ['\x7d']
  | first, (key, d) :: rest =>
    (if first then [] else [',']) ++ (key.text ++ ([':'] ++ (d.wire ++ membersWire false rest)))

end

mutual

theorem spelled_wire (d : Document) : d.Spelled d.wire := by
  match d with
  | .null | .bool _ | .number _ | .string _ => rfl
  | .array items => exact ⟨_, itemsSpelled_wire true items, rfl⟩
  | .object members => exact ⟨_, membersSpelled_wire true members, rfl⟩

theorem itemsSpelled_wire (first : Bool) (items : List Document) :
    ItemsSpelled first items (itemsWire first items) := by
  match items with
  | [] => exact ⟨[], blanks_nil, rfl⟩
  | d :: rest =>
    exact ⟨_, d.wire, _, gap_wire first, spelled_wire d, itemsSpelled_wire false rest, rfl⟩

theorem membersSpelled_wire (first : Bool) (members : List (Literal × Document)) :
    MembersSpelled first members (membersWire first members) := by
  match members with
  | [] => exact ⟨[], blanks_nil, rfl⟩
  | (key, d) :: rest =>
    exact ⟨_, [':'], d.wire, _, gap_wire first, colon_wire, spelled_wire d,
      membersSpelled_wire false rest, rfl⟩

end

/-- The texts of a document, with any blanks around them. -/
def Text (d : Document) (s : String) : Prop :=
  ∃ before t after, Blanks before ∧ Blanks after ∧ d.Spelled t ∧ s.toList = before ++ (t ++ after)

theorem text_wire (d : Document) : d.Text (String.ofList d.wire) :=
  ⟨[], d.wire, [], blanks_nil, blanks_nil, spelled_wire d, by simp⟩

mutual

def tree : Document → Tree
  | .null => .leaf (.ofScalar 'n' .null)
  | .bool true => .leaf (.ofScalar 't' (.bool true))
  | .bool false => .leaf (.ofScalar 'f' (.bool false))
  | .number n => .leaf ⟨n.text.head?, n.parts.scalar, .ok ()⟩
  | .string l => .leaf ⟨some '"', l.read.map .string, .ok ()⟩
  | .array items => .array (itemTrees items) (.ok ())
  | .object members => .object (memberTrees members) (.ok ())

def itemTrees : List Document → List Tree
  | [] => []
  | d :: rest => d.tree :: itemTrees rest

def memberTrees : List (Literal × Document) → List (Key × Tree)
  | [] => []
  | (key, d) :: rest => (⟨key.read, .ok ()⟩, d.tree) :: memberTrees rest

end

theorem itemTrees_eq_map (items : List Document) : itemTrees items = items.map tree := by
  induction items with
  | nil => rfl
  | cons d rest ih => simp [itemTrees, ih]

theorem memberTrees_eq_map (members : List (Literal × Document)) :
    memberTrees members = members.map fun m => (⟨m.1.read, .ok ()⟩, m.2.tree) := by
  induction members with
  | nil => rfl
  | cons m rest ih => simp [memberTrees, ih]

theorem memberTrees_append (members others : List (Literal × Document)) :
    memberTrees (members ++ others) = memberTrees members ++ memberTrees others := by
  simp [memberTrees_eq_map]

mutual

/-- How many containers stand one inside the other. -/
def depth : Document → Nat
  | .array items => itemsDepth items + 1
  | .object members => membersDepth members + 1
  | .null | .bool _ | .number _ | .string _ => 0

def itemsDepth : List Document → Nat
  | [] => 0
  | d :: rest => max d.depth (itemsDepth rest)

def membersDepth : List (Literal × Document) → Nat
  | [] => 0
  | (_, d) :: rest => max d.depth (membersDepth rest)

end

mutual

/-- No number in the document is out of range, and no surrogate stands without its partner. -/
def Clean : Document → Prop
  | .number n => n.InRange
  | .string l => Paired (l.map Mark.piece)
  | .array items => ItemsClean items
  | .object members => MembersClean members
  | .null | .bool _ => True

def ItemsClean : List Document → Prop
  | [] => True
  | d :: rest => d.Clean ∧ ItemsClean rest

def MembersClean : List (Literal × Document) → Prop
  | [] => True
  | (key, d) :: rest => Paired (key.map Mark.piece) ∧ d.Clean ∧ MembersClean rest

end

theorem membersDepth_le_iff {members : List (Literal × Document)} {n : Nat} :
    membersDepth members ≤ n ↔ ∀ m ∈ members, m.2.depth ≤ n := by
  induction members with
  | nil => simp [membersDepth]
  | cons m rest ih =>
    rw [membersDepth, Nat.max_le, ih]
    simp

theorem membersClean_iff {members : List (Literal × Document)} :
    MembersClean members ↔ ∀ m ∈ members, Paired (m.1.map Mark.piece) ∧ m.2.Clean := by
  induction members with
  | nil => simp [MembersClean]
  | cons m rest ih => simp [MembersClean, ih, and_assoc]

mutual

theorem take_tree (d : Document) (clean : d.Clean) {room : Nat} (h : d.depth ≤ room) :
    d.tree.take room = .ok () := by
  match d with
  | .null => rfl
  | .bool true | .bool false => rfl
  | .number n =>
    obtain ⟨value, scalar⟩ := clean
    rw [tree, Tree.take, scalar]
    rfl
  | .string l =>
    obtain ⟨s, read⟩ := Literal.exists_read clean
    rw [tree, Tree.take, read]
    rfl
  | .array items =>
    simp only [depth] at h
    rw [tree, Tree.take, if_neg (by omega), takeItems_trees items clean (by omega)]
    rfl
  | .object members =>
    simp only [depth] at h
    rw [tree, Tree.take, if_neg (by omega), takeMembers_trees members clean (by omega)]
    rfl

theorem takeItems_trees (items : List Document) (clean : ItemsClean items) {room : Nat}
    (h : itemsDepth items ≤ room) : Tree.takeItems room (itemTrees items) = .ok () := by
  match items with
  | [] => rfl
  | d :: rest =>
    simp only [itemsDepth, Nat.max_le] at h
    rw [itemTrees, Tree.takeItems, take_tree d clean.1 h.1]
    exact takeItems_trees rest clean.2 h.2

theorem takeMembers_trees (members : List (Literal × Document)) (clean : MembersClean members)
    {room : Nat} (h : membersDepth members ≤ room) :
    Tree.takeMembers room (memberTrees members) = .ok () := by
  match members with
  | [] => rfl
  | (key, d) :: rest =>
    obtain ⟨paired, clean, others⟩ := clean
    obtain ⟨name, read⟩ := Literal.exists_read paired
    simp only [membersDepth, Nat.max_le] at h
    rw [memberTrees, Tree.takeMembers, read]
    simp only [bind, Except.bind, take_tree d clean h.1]
    exact takeMembers_trees rest others h.2

end

end Document

theorem scanValue_blanks {gap : List Char} (h : Blanks gap) (steps : Nat) (s : List Char) :
    scanValue steps (gap ++ s) = scanValue steps s := by
  cases steps with
  | zero => rfl
  | succ steps => rw [scanValue, scanValue, dropSpace_append h]

theorem scanValue_scalar {c : Char} (space : isSpace c = false) (bracket : c ≠ '[')
    (brace : c ≠ '\x7b') (steps : Nat) (s : List Char) :
    scanValue (steps + 1) (c :: s) =
      (.leaf ⟨some c, (scanScalar c s).read, (scanScalar c s).skip⟩,
        (scanScalar c s).rest.toOption) := by
  rw [scanValue, dropSpace_cons space]
  split <;> simp_all

theorem scanItems_close {gap : List Char} (h : Blanks gap) (steps : Nat) (first : Bool)
    (rest : List Char) :
    scanItems (steps + 1) first (gap ++ ']' :: rest) = ([], .ok (), some rest) := by
  rw [scanItems, dropSpace_append h, dropSpace_cons (by decide)]
  rfl

theorem scanItems_cons {first : Bool} {gap s u : List Char} {c : Char} {tree : Tree} {steps : Nat}
    (hg : Gap first gap) (space : isSpace c = false) (bracket : c ≠ ']')
    (hv : scanValue steps (c :: s) = (tree, some u)) :
    scanItems (steps + 1) first (gap ++ c :: s) =
      (scanItems steps false u).map (tree :: ·) id := by
  cases first with
  | true =>
    rw [scanItems, dropSpace_append hg, dropSpace_cons space]
    split <;> simp_all
  | false =>
    obtain ⟨before, after, hb, ha, rfl⟩ := hg
    rw [List.append_assoc, scanItems, dropSpace_append hb, List.cons_append,
      dropSpace_cons (by decide)]
    simp [dropSpace_append ha, dropSpace_cons space, hv, bracket]

theorem scanMembers_close {gap : List Char} (h : Blanks gap) (steps : Nat) (first : Bool)
    (rest : List Char) :
    scanMembers (steps + 1) first (gap ++ '\x7d' :: rest) = ([], .ok (), some rest) := by
  rw [scanMembers, dropSpace_append h, dropSpace_cons (by decide)]
  rfl

theorem scanMembers_cons {first : Bool} {gap colon s u : List Char} {tree : Tree} {steps : Nat}
    (hg : Gap first gap) (key : Literal) (hc : Colon colon)
    (hv : scanValue steps s = (tree, some u)) :
    scanMembers (steps + 1) first (gap ++ (key.text ++ (colon ++ s))) =
      (scanMembers steps false u).map ((⟨key.read, .ok ()⟩, tree) :: ·) id := by
  obtain ⟨before, after, hb, ha, rfl⟩ := hc
  have hs : scanValue steps (after ++ s) = (tree, some u) := by rw [scanValue_blanks ha, hv]
  have wire : key.text ++ (before ++ ':' :: after ++ s) =
      '"' :: (key.flatMap Mark.text ++ '"' :: (before ++ ':' :: (after ++ s))) := by
    simp [Literal.text]
  have colon : dropSpace (before ++ ':' :: (after ++ s)) = ':' :: (after ++ s) := by
    rw [dropSpace_append hb, dropSpace_cons (by decide)]
  rw [wire]
  cases first with
  | true =>
    rw [scanMembers, dropSpace_append hg, dropSpace_cons (by decide)]
    simp [scanString_marks, Scanned.skip, colon, hs, Except.map]
  | false =>
    obtain ⟨left, right, hl, hr, rfl⟩ := hg
    rw [List.append_assoc, scanMembers, dropSpace_append hl, List.cons_append,
      dropSpace_cons (by decide)]
    simp [dropSpace_append hr, dropSpace_cons (show isSpace '"' = false by decide),
      scanString_marks, Scanned.skip, colon, hs, Except.map]

theorem isSpace_of_isDigit {c : Char} (h : c.isDigit = true) : isSpace c = false := by
  simp only [isSpace, Bool.or_eq_false_iff, decide_eq_false_iff_not]
  refine ⟨⟨⟨?_, ?_⟩, ?_⟩, ?_⟩ <;> (rintro rfl; revert h; decide)

theorem NumberLiteral.exists_cons (n : NumberLiteral) :
    ∃ c rest, n.text = c :: rest ∧ (c = '-' ∨ c.isDigit = true) := by
  obtain ⟨c, rest, hd, digit⟩ := n.whole.exists_cons
  let tail := fractionText n.fraction ++ exponentText n.exponent
  cases negative : n.negative with
  | true => exact ⟨'-', n.whole.chars ++ tail, by simp [text, negative, tail], .inl rfl⟩
  | false => exact ⟨c, rest ++ tail, by simp [text, negative, hd, tail], .inr digit⟩

theorem Document.Spelled.head {d : Document} {t : List Char} (h : d.Spelled t) :
    ∃ c s, t = c :: s ∧ isSpace c = false ∧ c ≠ ']' := by
  cases d with
  | null => exact ⟨_, _, h, by decide, by decide⟩
  | bool b => cases b <;> exact ⟨_, _, h, by decide, by decide⟩
  | number n =>
    obtain ⟨c, rest, text, hc⟩ := n.exists_cons
    refine ⟨c, rest, Eq.trans h text, ?_, ?_⟩
    · rcases hc with rfl | hc
      · decide
      · exact isSpace_of_isDigit hc
    · rcases hc with rfl | hc
      · decide
      · exact ne_of_isDigit hc (by decide)
  | string l => exact ⟨_, _, h, by decide, by decide⟩
  | array items =>
    obtain ⟨body, -, rfl⟩ := h
    exact ⟨_, _, rfl, by decide, by decide⟩
  | object members =>
    obtain ⟨body, -, rfl⟩ := h
    exact ⟨_, _, rfl, by decide, by decide⟩

theorem endsNumber_blanks {gap s : List Char} (h : Blanks gap) (hs : EndsNumber s) :
    EndsNumber (gap ++ s) := by
  intro c hc
  cases gap with
  | nil => exact hs c hc
  | cons e gap =>
    obtain rfl : e = c := by simpa using hc
    have blank := h e List.mem_cons_self
    simp only [isSpace, Bool.or_eq_true, decide_eq_true_eq] at blank
    rcases blank with ((rfl | rfl) | rfl) | rfl <;> decide

theorem endsNumber_append {gap s : List Char} {c : Char} (h : Blanks gap)
    (hc : c = ',' ∨ c = ']' ∨ c = '\x7d') : EndsNumber (gap ++ c :: s) := by
  refine endsNumber_blanks h fun d hd => ?_
  obtain rfl : c = d := by simpa using hd
  rcases hc with rfl | rfl | rfl <;> decide

namespace Document

theorem ItemsSpelled.length_pos {first : Bool} {items : List Document} {u : List Char}
    (h : ItemsSpelled first items u) : 0 < u.length := by
  cases items with
  | nil =>
    obtain ⟨gap, -, rfl⟩ := h
    simp
  | cons d items =>
    obtain ⟨gap, t, u, -, ht, -, rfl⟩ := h
    obtain ⟨c, t, rfl, -, -⟩ := ht.head
    simp only [List.length_append, List.length_cons]
    omega

theorem ItemsSpelled.endsNumber {items : List Document} {u : List Char}
    (h : ItemsSpelled false items u) (rest : List Char) : EndsNumber (u ++ rest) := by
  cases items with
  | nil =>
    obtain ⟨gap, hg, rfl⟩ := h
    rw [List.append_assoc]
    exact endsNumber_append hg (by simp)
  | cons d items =>
    obtain ⟨gap, t, u, ⟨before, after, hb, ha, rfl⟩, ht, hu, rfl⟩ := h
    simp only [List.append_assoc, List.cons_append]
    exact endsNumber_append hb (by simp)

theorem MembersSpelled.endsNumber {members : List (Literal × Document)} {u : List Char}
    (h : MembersSpelled false members u) (rest : List Char) : EndsNumber (u ++ rest) := by
  cases members with
  | nil =>
    obtain ⟨gap, hg, rfl⟩ := h
    rw [List.append_assoc]
    exact endsNumber_append hg (by simp)
  | cons member members =>
    obtain ⟨gap, colon, t, u, ⟨before, after, hb, ha, rfl⟩, hc, ht, hu, rfl⟩ := h
    simp only [List.append_assoc, List.cons_append]
    exact endsNumber_append hb (by simp)

end Document

theorem scanValue_number (n : NumberLiteral) (steps : Nat) {rest : List Char}
    (ends : EndsNumber rest) :
    scanValue (steps + 1) (n.text ++ rest) = (Document.tree (.number n), some rest) := by
  have scanned := scanNumber_text ends n
  obtain ⟨c, s, text, hc⟩ := n.exists_cons
  have plain : isSpace c = false ∧ c ≠ '[' ∧ c ≠ '\x7b' ∧ c ≠ 'n' ∧ c ≠ 't' ∧ c ≠ 'f' ∧
      c ≠ '"' := by
    rcases hc with rfl | hc
    · decide
    · refine ⟨isSpace_of_isDigit hc, ?_, ?_, ?_, ?_, ?_, ?_⟩ <;> exact ne_of_isDigit hc (by decide)
  obtain ⟨space, bracket, brace, n', t', f', quote⟩ := plain
  rw [Document.tree, text]
  rw [text, List.cons_append] at scanned
  have scalar : scanScalar c (s ++ rest) = ⟨n.parts.scalar, .ok rest⟩ := by
    rw [scanScalar.eq_5 _ _ n' t' f' quote, if_pos hc, scanned]
  rw [List.cons_append, scanValue_scalar space bracket brace, scalar]
  rfl

mutual

/-- Any text of a document is scanned as its tree. A scan of a value, an item or a member never
takes more steps than it takes characters. -/
theorem scanValue_text (d : Document) {t : List Char} (spelled : d.Spelled t) {steps : Nat}
    (enough : t.length ≤ steps) {rest : List Char} (ends : EndsNumber rest) :
    scanValue steps (t ++ rest) = (d.tree, some rest) := by
  obtain ⟨c, s, rfl, -, -⟩ := spelled.head
  obtain ⟨steps, rfl⟩ := Nat.exists_eq_add_one_of_ne_zero (n := steps) (by
    rintro rfl; simp at enough)
  match d with
  | .null =>
    rw [show c :: s = ['n', 'u', 'l', 'l'] from spelled]
    rfl
  | .bool true =>
    rw [show c :: s = Document.word true from spelled]
    rfl
  | .bool false =>
    rw [show c :: s = Document.word false from spelled]
    rfl
  | .number n =>
    rw [show c :: s = n.text from spelled]
    exact scanValue_number n steps ends
  | .string l =>
    rw [show c :: s = l.text from spelled]
    simp only [Literal.text, List.cons_append, List.append_assoc, List.nil_append]
    rw [scanValue_scalar (by decide) (by decide) (by decide), scanScalar, scanString_marks]
    rfl
  | .array items =>
    obtain ⟨body, hbody, ht⟩ := spelled
    rw [ht] at enough ⊢
    have := scanItems_text items hbody (Nat.le_of_succ_le_succ enough) rest
    rw [List.cons_append, scanValue, dropSpace_cons (by decide)]
    simp [this, Document.tree]
  | .object members =>
    obtain ⟨body, hbody, ht⟩ := spelled
    rw [ht] at enough ⊢
    have := scanMembers_text members hbody (Nat.le_of_succ_le_succ enough) rest
    rw [List.cons_append, scanValue, dropSpace_cons (by decide)]
    simp [this, Document.tree]

theorem scanItems_text (items : List Document) {first : Bool} {s : List Char}
    (spelled : Document.ItemsSpelled first items s) {steps : Nat} (enough : s.length ≤ steps)
    (rest : List Char) :
    scanItems steps first (s ++ rest) = (Document.itemTrees items, .ok (), some rest) := by
  match items with
  | [] =>
    obtain ⟨gap, hg, rfl⟩ := spelled
    simp only [List.length_append, List.length_cons] at enough
    obtain ⟨steps, rfl⟩ := Nat.exists_eq_add_one_of_ne_zero (n := steps) (by omega)
    rw [List.append_assoc]
    exact scanItems_close hg steps first rest
  | d :: others =>
    obtain ⟨gap, t, u, hg, ht, hu, rfl⟩ := spelled
    obtain ⟨c, t, rfl, space, bracket⟩ := ht.head
    -- The bracket still to come pays for the step that this item takes.
    have last := hu.length_pos
    simp only [List.length_append, List.length_cons] at enough
    obtain ⟨steps, rfl⟩ := Nat.exists_eq_add_one_of_ne_zero (n := steps) (by omega)
    have short : (c :: t).length ≤ steps := by simp only [List.length_cons]; omega
    have value := scanValue_text d ht short (hu.endsNumber rest)
    have others := scanItems_text others hu (show u.length ≤ steps by omega) rest
    rw [List.cons_append] at value
    simp only [List.append_assoc, List.cons_append]
    rw [scanItems_cons hg space bracket value, others]
    rfl

theorem scanMembers_text (members : List (Literal × Document)) {first : Bool} {s : List Char}
    (spelled : Document.MembersSpelled first members s) {steps : Nat} (enough : s.length ≤ steps)
    (rest : List Char) :
    scanMembers steps first (s ++ rest) = (Document.memberTrees members, .ok (), some rest) := by
  match members with
  | [] =>
    obtain ⟨gap, hg, rfl⟩ := spelled
    simp only [List.length_append, List.length_cons] at enough
    obtain ⟨steps, rfl⟩ := Nat.exists_eq_add_one_of_ne_zero (n := steps) (by omega)
    rw [List.append_assoc]
    exact scanMembers_close hg steps first rest
  | (key, d) :: others =>
    obtain ⟨gap, colon, t, u, hg, hc, ht, hu, rfl⟩ := spelled
    have mark := hc.length_pos
    simp only [List.length_append] at enough
    obtain ⟨steps, rfl⟩ := Nat.exists_eq_add_one_of_ne_zero (n := steps) (by omega)
    have short : t.length ≤ steps := by omega
    have value := scanValue_text d ht short (hu.endsNumber rest)
    have others := scanMembers_text others hu (show u.length ≤ steps by omega) rest
    simp only [List.append_assoc]
    rw [scanMembers_cons hg key hc value, others]
    rfl

end

theorem scan_text {d : Document} {s : String} (h : d.Text s) :
    ∃ rest, Blanks rest ∧ scan s = (d.tree, some rest) := by
  obtain ⟨before, t, after, hb, ha, spelled, whole⟩ := h
  have enough : t.length ≤ 2 * s.toList.length + 2 := by
    rw [whole, List.length_append, List.length_append]
    omega
  have ends : EndsNumber after := by
    simpa using endsNumber_blanks ha endsNumber_nil
  refine ⟨after, ha, ?_⟩
  rw [scan]
  rw [whole] at enough ⊢
  rw [scanValue_blanks hb]
  exact scanValue_text d spelled enough ends

end BuildCapture.Json
