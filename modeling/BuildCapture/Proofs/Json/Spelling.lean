import BuildCapture.Proofs.Json.Document
set_option autoImplicit false

namespace BuildCapture.Json

namespace Value

mutual

/-- The texts of a value. -/
def Spelled : Value → List Char → Prop
  | .array items, s => ∃ body, ItemsSpelled true items body ∧ s = '[' :: body
  | .object members, s => ∃ body, MembersSpelled true members body ∧ s = '\x7b' :: body
  | .null, s => s = wire .null
  | .bool b, s => s = wire (.bool b)
  | .int n, s => s = wire (.int n)
  | .string a, s => s = wire (.string a)

def ItemsSpelled : Bool → List Value → List Char → Prop
  | _, [], s => ∃ gap, Blanks gap ∧ s = gap ++ [']']
  | first, v :: rest, s =>
    ∃ gap t u, Gap first gap ∧ v.Spelled t ∧ ItemsSpelled false rest u ∧ s = gap ++ (t ++ u)

def MembersSpelled : Bool → List (String × Value) → List Char → Prop
  | _, [], s => ∃ gap, Blanks gap ∧ s = gap ++ ['\x7d']
  | first, (name, v) :: rest, s =>
    ∃ gap colon t u, Gap first gap ∧ Colon colon ∧ v.Spelled t ∧ MembersSpelled false rest u ∧
      s = gap ++ (stringWire name ++ (colon ++ (t ++ u)))

end

mutual

def Fits : Value → Prop
  | .int n => FitsWord n
  | .array items => ItemsFit items
  | .object members => MembersFit members
  | .null | .bool _ | .string _ => True

def ItemsFit : List Value → Prop
  | [] => True
  | v :: rest => v.Fits ∧ ItemsFit rest

def MembersFit : List (String × Value) → Prop
  | [] => True
  | (_, v) :: rest => v.Fits ∧ MembersFit rest

end

end Value

theorem ofInt_eq_cons (n : Int) :
    ∃ c digits, Numeral.ofInt n = c :: digits ∧ (c = '-' ∨ c.isDigit = true) := by
  rw [Numeral.ofInt]
  split
  case isTrue => exact ⟨_, _, rfl, .inl rfl⟩
  case isFalse =>
    cases hd : Nat.toDigits 10 n.natAbs with
    | nil => exact absurd hd Nat.toDigits_ne_nil
    | cons c digits =>
      have := Nat.isDigit_of_mem_toDigits (by omega) (by omega) (hd ▸ List.mem_cons_self)
      exact ⟨c, digits, rfl, .inr this⟩

mutual

theorem exists_document (v : Value) {t : List Char} (spelled : v.Spelled t) (fits : v.Fits) :
    ∃ d : Document, d.Spelled t ∧ d.tree = v.tree := by
  match v with
  | .null => exact ⟨.null, spelled, rfl⟩
  | .bool true => exact ⟨.bool true, spelled, rfl⟩
  | .bool false => exact ⟨.bool false, spelled, rfl⟩
  | .int n =>
    obtain ⟨l, text, scalar⟩ := exists_number fits
    obtain ⟨c, digits, hn, -⟩ := ofInt_eq_cons n
    refine ⟨.number l, Eq.trans spelled text.symm, ?_⟩
    rw [Document.tree, Value.tree, text, scalar, hn]
    rfl
  | .string s =>
    obtain ⟨l, text, read⟩ := exists_literal s
    refine ⟨.string l, Eq.trans spelled text.symm, ?_⟩
    rw [Document.tree, read]
    rfl
  | .array items =>
    obtain ⟨body, spelled, rfl⟩ := spelled
    obtain ⟨documents, spelled, trees⟩ := exists_itemDocuments items spelled fits
    exact ⟨.array documents, ⟨body, spelled, rfl⟩, congrArg (Tree.array · _) trees⟩
  | .object members =>
    obtain ⟨body, spelled, rfl⟩ := spelled
    obtain ⟨documents, spelled, trees⟩ := exists_memberDocuments members spelled fits
    exact ⟨.object documents, ⟨body, spelled, rfl⟩, congrArg (Tree.object · _) trees⟩

theorem exists_itemDocuments (items : List Value) {first : Bool} {s : List Char}
    (spelled : Value.ItemsSpelled first items s) (fits : Value.ItemsFit items) :
    ∃ documents, Document.ItemsSpelled first documents s ∧
      Document.itemTrees documents = Value.itemTrees items := by
  match items with
  | [] => exact ⟨[], spelled, rfl⟩
  | v :: rest =>
    obtain ⟨gap, t, u, hg, ht, hu, rfl⟩ := spelled
    obtain ⟨d, ht, tree⟩ := exists_document v ht fits.1
    obtain ⟨documents, hu, trees⟩ := exists_itemDocuments rest hu fits.2
    refine ⟨d :: documents, ⟨gap, t, u, hg, ht, hu, rfl⟩, ?_⟩
    rw [Document.itemTrees, Value.itemTrees, tree, trees]

theorem exists_memberDocuments (members : List (String × Value)) {first : Bool} {s : List Char}
    (spelled : Value.MembersSpelled first members s) (fits : Value.MembersFit members) :
    ∃ documents, Document.MembersSpelled first documents s ∧
      Document.memberTrees documents = Value.memberTrees members := by
  match members with
  | [] => exact ⟨[], spelled, rfl⟩
  | (name, v) :: rest =>
    obtain ⟨gap, colon, t, u, hg, hc, ht, hu, rfl⟩ := spelled
    obtain ⟨key, text, read⟩ := exists_literal name
    obtain ⟨d, ht, tree⟩ := exists_document v ht fits.1
    obtain ⟨documents, hu, trees⟩ := exists_memberDocuments rest hu fits.2
    refine ⟨(key, d) :: documents, ⟨gap, colon, t, u, hg, hc, ht, hu, by rw [text]⟩, ?_⟩
    rw [Document.memberTrees, Value.memberTrees, read, tree, trees]
    rfl

end

theorem intercalate_cons (mark w : List Char) (ws : List (List Char)) :
    mark.intercalate (w :: ws) = w ++ ws.flatMap (mark ++ ·) := by
  induction ws generalizing w with
  | nil => simp
  | cons w' ws ih =>
    rw [List.intercalate_cons_cons, ih]
    simp

namespace Value

mutual

theorem spelled_wire (v : Value) : v.Spelled v.wire := by
  match v with
  | .null => rfl
  | .bool true | .bool false => rfl
  | .int n => rfl
  | .string s => rfl
  | .array [] => exact ⟨[']'], ⟨[], blanks_nil, rfl⟩, rfl⟩
  | .array (v :: rest) =>
    refine ⟨v.wire ++ ((itemWires rest).flatMap (',' :: ·) ++ [']']), ?_, ?_⟩
    · exact ⟨[], v.wire, _, blanks_nil, spelled_wire v, itemsSpelled_wires rest, rfl⟩
    · simp [wire, itemWires, intercalate_cons]
  | .object [] => exact ⟨['\x7d'], ⟨[], blanks_nil, rfl⟩, rfl⟩
  | .object ((name, v) :: rest) =>
    refine ⟨stringWire name ++ ([':'] ++ (v.wire ++
      ((memberWires rest).flatMap (',' :: ·) ++ ['\x7d']))), ?_, ?_⟩
    · exact ⟨[], [':'], v.wire, _, blanks_nil, colon_wire, spelled_wire v,
        membersSpelled_wires rest, rfl⟩
    · simp [wire, memberWires, intercalate_cons]

theorem itemsSpelled_wires (items : List Value) :
    ItemsSpelled false items ((itemWires items).flatMap (',' :: ·) ++ [']']) := by
  match items with
  | [] => exact ⟨[], blanks_nil, rfl⟩
  | v :: rest =>
    refine ⟨[','], v.wire, _, gap_wire false, spelled_wire v, itemsSpelled_wires rest, ?_⟩
    simp [itemWires]

theorem membersSpelled_wires (members : List (String × Value)) :
    MembersSpelled false members ((memberWires members).flatMap (',' :: ·) ++ ['\x7d']) := by
  match members with
  | [] => exact ⟨[], blanks_nil, rfl⟩
  | (name, v) :: rest =>
    refine ⟨[','], [':'], v.wire, _, gap_wire false, colon_wire, spelled_wire v,
      membersSpelled_wires rest, ?_⟩
    simp [memberWires]

end

end Value

theorem scan_ofList {v : Value} {t : List Char} (spelled : v.Spelled t) (fits : v.Fits) :
    scan (String.ofList t) = (v.tree, some []) := by
  obtain ⟨d, spelled, tree⟩ := exists_document v spelled fits
  have enough : t.length ≤ 2 * t.length + 2 := by omega
  rw [← tree]
  simpa [scan] using scanValue_text d spelled enough endsNumber_nil

end BuildCapture.Json
