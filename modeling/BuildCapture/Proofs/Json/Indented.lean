import BuildCapture.Proofs.Json.Accepted
set_option autoImplicit false

namespace BuildCapture.Json

namespace Value

def lineStart (level : Nat) : List Char := '\n' :: List.replicate (2 * level) ' '

theorem blanks_lineStart (level : Nat) : Blanks (lineStart level) := by
  intro c hc
  rcases List.mem_cons.1 hc with rfl | hc
  · decide
  · rw [List.eq_of_mem_replicate hc]
    decide

theorem block_cons (opening closing : Char) (level : Nat) (line : List Char)
    (lines : List (List Char)) :
    block opening closing level (line :: lines) =
      opening :: (lineStart (level + 1) ++ (line ++
        (lines.flatMap (fun line => ',' :: (lineStart (level + 1) ++ line)) ++
          (lineStart level ++ [closing])))) := by
  simp [block, lineStart, intercalate_cons]

theorem gap_lineStart (level : Nat) : Gap false (',' :: lineStart level) :=
  ⟨[], lineStart level, blanks_nil, blanks_lineStart level, rfl⟩

theorem colon_space : Colon [':', ' '] :=
  ⟨[], [' '], blanks_nil, by simp [Blanks, isSpace], rfl⟩

mutual

theorem spelled_indented (level : Nat) (v : Value) : v.Spelled (v.indented level) := by
  match v with
  | .null => rfl
  | .bool true | .bool false => rfl
  | .int n => rfl
  | .string s => rfl
  | .array [] => exact ⟨[']'], ⟨[], blanks_nil, rfl⟩, rfl⟩
  | .array (v :: rest) =>
    rw [indented, itemLines, block_cons]
    exact ⟨_, ⟨lineStart (level + 1), v.indented (level + 1), _, blanks_lineStart (level + 1),
      spelled_indented (level + 1) v, itemsSpelled_lines level rest, rfl⟩, rfl⟩
  | .object [] => exact ⟨['\x7d'], ⟨[], blanks_nil, rfl⟩, rfl⟩
  | .object ((name, v) :: rest) =>
    rw [indented, memberLines, block_cons]
    refine ⟨_, ⟨lineStart (level + 1), [':', ' '], v.indented (level + 1), _,
      blanks_lineStart (level + 1), colon_space, spelled_indented (level + 1) v,
      membersSpelled_lines level rest, rfl⟩, ?_⟩
    simp

theorem itemsSpelled_lines (level : Nat) (items : List Value) :
    ItemsSpelled false items
      ((itemLines level items).flatMap (fun line => ',' :: (lineStart (level + 1) ++ line)) ++
        (lineStart level ++ [']'])) := by
  match items with
  | [] => exact ⟨lineStart level, blanks_lineStart level, rfl⟩
  | v :: rest =>
    refine ⟨',' :: lineStart (level + 1), v.indented (level + 1), _, gap_lineStart (level + 1),
      spelled_indented (level + 1) v, itemsSpelled_lines level rest, ?_⟩
    simp [itemLines]

theorem membersSpelled_lines (level : Nat) (members : List (String × Value)) :
    MembersSpelled false members
      ((memberLines level members).flatMap (fun line => ',' :: (lineStart (level + 1) ++ line)) ++
        (lineStart level ++ ['\x7d'])) := by
  match members with
  | [] => exact ⟨lineStart level, blanks_lineStart level, rfl⟩
  | (name, v) :: rest =>
    refine ⟨',' :: lineStart (level + 1), [':', ' '], v.indented (level + 1), _,
      gap_lineStart (level + 1), colon_space, spelled_indented (level + 1) v,
      membersSpelled_lines level rest, ?_⟩
    simp [memberLines]

end

def layout (indent : Bool) (v : Value) : List Char := if indent then v.indented 0 else v.wire

theorem spelled_layout (indent : Bool) (v : Value) : v.Spelled (v.layout indent) := by
  cases indent with
  | true => exact spelled_indented 0 v
  | false => exact spelled_wire v

end Value

namespace Codec

variable {α : Type} {c : Codec α}

theorem decode_spelled_blanks (c : Codec α) {v : Value} {t after : List Char}
    (spelled : v.Spelled t) (fits : v.Fits) (blanks : Blanks after) :
    c.decode (String.ofList (t ++ after)) = c.read .top v.tree := by
  obtain ⟨d, spelled, tree⟩ := exists_document v spelled fits
  have text : d.Text (String.ofList (t ++ after)) :=
    ⟨[], t, after, blanks_nil, blanks, spelled, by simp⟩
  rw [c.decode_text text, tree]

/-- A lawful codec reads back what is written with it in either layout. -/
theorem decode_layout (h : c.Lawful) (a : α) (shallow : (c.write a).depth ≤ Frame.top.room)
    (indent : Bool) {after : List Char} (blanks : Blanks after) :
    c.decode (String.ofList ((c.write a).layout indent ++ after)) = .ok a :=
  (c.decode_spelled_blanks (Value.spelled_layout indent _) (h.fits a) blanks).trans
    (h.read_write a _ shallow)

end Codec

end BuildCapture.Json
