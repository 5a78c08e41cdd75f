import BuildCapture.Proofs.Toml.Strings
import BuildCapture.Toml.Reader
set_option autoImplicit false

/-!
A written document is read back as the tables that it was written from (`read_write`). Its lines are
read one by one into statements, which are then added up: each header opens a table behind the
others, and each entry goes to the end of the table opened last.
-/

namespace BuildCapture.Toml

def Bare (w : List Char) : Prop := w ≠ [] ∧ w.all isBare = true

instance : DecidablePred Bare := fun _ => inferInstanceAs (Decidable (_ ∧ _))

theorem Bare.eq_cons {w : List Char} (h : Bare w) : ∃ c t, w = c :: t ∧ isBare c = true := by
  obtain ⟨c, t, rfl⟩ := List.exists_cons_of_ne_nil h.1
  exact ⟨c, t, rfl, List.all_eq_true.1 h.2 c List.mem_cons_self⟩

theorem ne_of_isBare {c d : Char} (bare : isBare c = true) (other : isBare d = false) : c ≠ d := by
  rintro rfl
  rw [other] at bare
  cases bare

theorem isBlank_of_isBare {c : Char} (bare : isBare c = true) : isBlank c = false := by
  have space : c ≠ ' ' := ne_of_isBare bare (by decide)
  have tab : c ≠ '\t' := ne_of_isBare bare (by decide)
  simp [isBlank, space, tab]

theorem dropBlank_bare {w : List Char} (h : Bare w) (rest : List Char) :
    dropBlank (w ++ rest) = w ++ rest := by
  obtain ⟨c, t, rfl, bare⟩ := h.eq_cons
  simp [dropBlank, isBlank_of_isBare bare]

theorem readName_bare {w rest : List Char} {c : Char} (h : Bare w) (ends : isBare c = false) :
    readName (w ++ c :: rest) = some (String.ofList w, c :: rest) := by
  have taken : (w ++ c :: rest).takeWhile isBare = w := by
    rw [List.takeWhile_append_of_pos (List.all_eq_true.1 h.2)]
    simp [ends]
  have left : (w ++ c :: rest).dropWhile isBare = c :: rest := by
    rw [List.dropWhile_append_of_pos (List.all_eq_true.1 h.2)]
    simp [ends]
  obtain ⟨d, t, rfl, bare⟩ := h.eq_cons
  have double := ne_of_isBare bare (by decide : isBare '"' = false)
  have single := ne_of_isBare bare (by decide : isBare '\'' = false)
  rw [List.cons_append] at taken left ⊢
  unfold readName
  split
  case h_1 quote => exact absurd (List.cons.inj quote).1 double
  case h_2 quote => exact absurd (List.cons.inj quote).1 single
  rw [taken, left]

theorem readKey_bare {w : List Char} {c : Char} (rest : List Char) (h : Bare w)
    (ends : isBare c = false) (single : (dropBlank (c :: rest)).head? ≠ some '.') :
    readKey (w ++ c :: rest) = some (⟨[], String.ofList w⟩, dropBlank (c :: rest)) := by
  have noMore : readMoreNames (rest.length + 1 + 1) (c :: rest) =
      some ([], dropBlank (c :: rest)) := by
    rw [readMoreNames]
    split
    case h_1 dot => exact absurd (congrArg List.head? dot) single
    case h_2 => rfl
  rw [readKey, dropBlank_bare h, readName_bare h ends]
  simp [noMore, maxDepth]

theorem quote_of_readString {s : List Char} {r : String × List Char} (h : readString s = some r) :
    ∃ q t, s = q :: t ∧ (q = '"' ∨ q = '\'') := by
  unfold readString at h
  split at h
  case h_1 | h_2 => exact ⟨_, _, rfl, .inl rfl⟩
  case h_3 | h_4 => exact ⟨_, _, rfl, .inr rfl⟩
  case h_5 => cases h

theorem readValue_of_readString {steps room : Nat} {s : List Char} {r : String × List Char}
    (h : readString s = some r) : readValue (steps + 1) room s = some (.string r.1, r.2) := by
  obtain ⟨q, t, rfl, rfl | rfl⟩ := quote_of_readString h
  · simp [readValue, h]
  · simp [readValue, h]

theorem dropBlank_of_readString {s : List Char} {r : String × List Char}
    (h : readString s = some r) : dropBlank s = s := by
  obtain ⟨q, t, rfl, rfl | rfl⟩ := quote_of_readString h
  · rfl
  · rfl

theorem readStatement_header {name : String} (h : Bare name.toList) (rest : List Char) :
    readStatement ('[' :: (name.toList ++ ']' :: rest)) = some (.header ⟨[], name⟩, rest) := by
  have read := readKey_bare rest h (by decide : isBare ']' = false)
    (by simp [dropBlank, isBlank])
  rw [String.ofList_toList] at read
  unfold readStatement
  split
  case h_1 double =>
    obtain ⟨c, t, shown, bare⟩ := h.eq_cons
    rw [shown] at double
    have bracket : c = '[' := (List.cons.inj (List.cons.inj double).2).1
    exact absurd bracket (ne_of_isBare bare (by decide))
  case h_2 single =>
    cases single
    simp [read, readMark, dropBlank, isBlank]
  case h_3 other => exact absurd rfl (other _)

theorem readStatement_entry {key : String} (h : Bare key.toList) (value : String)
    (rest : List Char) :
    readStatement (entryWire key value ++ rest) =
      some (.entry ⟨[], key⟩ (.string value), '\n' :: rest) := by
  have string := readString_stringWire value.toList ('\n' :: rest) (by simp) (by simp)
  have wire : entryWire key value ++ rest =
      key.toList ++ ' ' :: '=' :: ' ' :: (stringWire value.toList ++ '\n' :: rest) := by
    simp [entryWire]
  rw [wire]
  generalize stringWire value.toList ++ '\n' :: rest = text at string
  have blank : dropBlank (' ' :: text) = text := dropBlank_of_readString string
  have read := readKey_bare ('=' :: ' ' :: text) h (by decide : isBare ' ' = false)
    (by simp [dropBlank, isBlank])
  rw [String.ofList_toList] at read
  obtain ⟨c, t, shown, bare⟩ := h.eq_cons
  rw [shown, List.cons_append] at read ⊢
  have bracket : c ≠ '[' := ne_of_isBare bare (by decide)
  unfold readStatement
  split
  case h_1 header => exact absurd (List.cons.inj header).1 bracket
  case h_2 header => exact absurd (List.cons.inj header).1 bracket
  rw [read]
  have equals : dropBlank (' ' :: '=' :: ' ' :: text) = '=' :: ' ' :: text := rfl
  simp [equals, readMark, blank, readValue_of_readString string]

/-- The lines of a text read as these statements. -/
def Lists (text : List Char) (statements : List Statement) : Prop :=
  ∀ steps, text.length < steps → readLines steps text = some statements

theorem lists_nil : Lists [] [] := by
  intro steps room
  cases steps with
  | zero => cases room
  | succ steps => rfl

theorem Lists.blank {rest : List Char} {l : List Statement} (h : Lists rest l) :
    Lists ('\n' :: rest) l := by
  intro steps room
  cases steps with
  | zero => cases room
  | succ steps =>
    have more : readLines steps rest = some l := h steps (Nat.lt_of_succ_lt_succ room)
    simpa [readLines, dropBlank, isBlank, isEmptyLine, readLineTail, readLineEnd] using more

theorem Lists.statement {text rest : List Char} {l : List Statement} {c : Char} {st : Statement}
    (shown : isBlank c = false) (full : isEmptyLine (c :: text) = false)
    (read : readStatement (c :: text) = some (st, '\n' :: rest))
    (shorter : rest.length ≤ text.length) (h : Lists rest l) : Lists (c :: text) (st :: l) := by
  intro steps room
  cases steps with
  | zero => cases room
  | succ steps =>
    have more : readLines steps rest = some l :=
      h steps (Nat.lt_of_le_of_lt shorter (Nat.lt_of_succ_lt_succ room))
    have tail : readLineTail ('\n' :: rest) = some rest := by
      simp [readLineTail, dropBlank, isBlank, readLineEnd]
    simp [readLines, dropBlank, shown, full, read, tail, more]

theorem Lists.header {name : String} {rest : List Char} {l : List Statement}
    (bare : Bare name.toList) (h : Lists rest l) :
    Lists ('[' :: (name.toList ++ ']' :: '\n' :: rest)) (.header ⟨[], name⟩ :: l) := by
  refine .statement (by decide) rfl (readStatement_header bare _) ?_ h
  simp only [List.length_append, List.length_cons]
  omega

theorem Lists.entry {key : String} (value : String) {rest : List Char} {l : List Statement}
    (bare : Bare key.toList) (h : Lists rest l) :
    Lists (entryWire key value ++ rest) (.entry ⟨[], key⟩ (.string value) :: l) := by
  have read := readStatement_entry bare value rest
  have shorter : rest.length + 2 ≤ (entryWire key value ++ rest).length := by
    simp [entryWire]
    omega
  obtain ⟨c, t, shown, first⟩ := bare.eq_cons
  have wire : ∃ text, entryWire key value ++ rest = c :: text := by simp [entryWire, shown]
  obtain ⟨text, wire⟩ := wire
  rw [wire] at read shorter ⊢
  have comment : c ≠ '#' := ne_of_isBare first (by decide)
  have feed : c ≠ '\n' := ne_of_isBare first (by decide)
  have ret : c ≠ '\r' := ne_of_isBare first (by decide)
  have full : isEmptyLine (c :: text) = false := by simp [isEmptyLine, comment, feed, ret]
  refine .statement (isBlank_of_isBare first) full read ?_ h
  rw [List.length_cons] at shorter
  omega

def entryStatement (e : String × String) : Statement := .entry ⟨[], e.1⟩ (.string e.2)

def tableStatements (t : String × List (String × String)) : List Statement :=
  .header ⟨[], t.1⟩ :: t.2.map entryStatement

theorem Lists.entries {es : List (String × String)} {rest : List Char} {l : List Statement}
    (bare : ∀ e ∈ es, Bare e.1.toList) (h : Lists rest l) :
    Lists ((es.flatMap fun e => entryWire e.1 e.2) ++ rest) (es.map entryStatement ++ l) := by
  induction es with
  | nil => exact h
  | cons e es ih =>
    rw [List.forall_mem_cons] at bare
    rw [List.flatMap_cons, List.append_assoc]
    exact .entry e.2 bare.1 (ih bare.2)

theorem Lists.table {t : String × List (String × String)} {rest : List Char} {l : List Statement}
    (name : Bare t.1.toList) (keys : ∀ e ∈ t.2, Bare e.1.toList) (h : Lists rest l) :
    Lists (tableWire t.1 t.2 ++ rest) (tableStatements t ++ l) := by
  have wire : tableWire t.1 t.2 ++ rest = '[' :: (t.1.toList ++ ']' :: '\n' ::
      ((t.2.flatMap fun e => entryWire e.1 e.2) ++ rest)) := by
    simp [tableWire]
  rw [wire]
  exact .header name (.entries keys h)

theorem Lists.tables {tables : List (String × List (String × String))}
    (names : ∀ t ∈ tables, Bare t.1.toList) (keys : ∀ t ∈ tables, ∀ e ∈ t.2, Bare e.1.toList) :
    Lists (['\n'].intercalate (tables.map fun t => tableWire t.1 t.2))
      (tables.flatMap tableStatements) := by
  induction tables with
  | nil => exact lists_nil
  | cons t tables ih =>
    rw [List.forall_mem_cons] at names keys
    have more := ih names.2 keys.2
    cases tables with
    | nil => simpa using Lists.table names.1 keys.1 lists_nil
    | cons u tables => simpa using Lists.table names.1 keys.1 more.blank

def entryNode (e : String × String) : String × Node := (e.1, .string e.2)

def tableNode (t : String × List (String × String)) : String × Node :=
  (t.1, .table .defined (t.2.map entryNode))

namespace Entries

abbrev names (es : Entries) : List String := es.map Prod.fst

theorem lookup_eq_none {name : String} {es : Entries} (absent : name ∉ es.names) :
    es.lookup name = none := by
  rw [List.lookup_eq_none_iff]
  intro e mem
  rw [bne_iff_ne]
  rintro rfl
  exact absent (List.mem_map_of_mem mem)

theorem lookup_last {name : String} {es : Entries} (node : Node) (absent : name ∉ es.names) :
    List.lookup name (es ++ [(name, node)]) = some node := by
  simp [List.lookup_append, lookup_eq_none absent]

theorem replace_last {name : String} {es : Entries} (old new : Node) (absent : name ∉ es.names) :
    replace name new (es ++ [(name, old)]) = es ++ [(name, new)] := by
  have kept : ∀ e ∈ es, (if e.1 = name then (name, new) else e) = e := by
    intro e mem
    refine if_neg ?_
    rintro rfl
    exact absent (List.mem_map_of_mem mem)
  rw [replace, List.map_append, List.map_congr_left kept, List.map_id']
  simp

theorem descend_last {name : String} {es sub : Entries} (change : Origin → Entries → Option Entries)
    (absent : name ∉ es.names) :
    descend false change [name] .defined (es ++ [(name, .table .defined sub)]) =
      (change .defined sub).map fun sub => es ++ [(name, .table .defined sub)] := by
  simp [descend, lookup_last _ absent, replace_last _ _ absent]

theorem addEntry_new {key : String} {es : Entries} (node : Node) (absent : key ∉ es.names) :
    addEntry ⟨[], key⟩ node es = some (es ++ [(key, node)]) := by
  simp [addEntry, descend, addNew, lookup_eq_none absent]

theorem addHeader_new {name : String} {es : Entries} (absent : name ∉ es.names) :
    addHeader ⟨[], name⟩ es = some (es ++ [(name, .table .defined [])]) := by
  simp [addHeader, descend, lookup_eq_none absent]

theorem addAll_entries {name : String} {es sub : Entries} {more : List (String × String)}
    (absent : name ∉ es.names) (distinct : (sub.names ++ more.map Prod.fst).Nodup)
    (l : List Statement) :
    addAll [name] (more.map entryStatement ++ l) (es ++ [(name, .table .defined sub)]) =
      addAll [name] l (es ++ [(name, .table .defined (sub ++ more.map entryNode))]) := by
  induction more generalizing sub with
  | nil => simp
  | cons e more ih =>
    have here : e.1 ∉ sub.names := fun mem =>
      (List.nodup_append.1 distinct).2.2 _ mem _ List.mem_cons_self rfl
    have later : (names (sub ++ [entryNode e]) ++ more.map Prod.fst).Nodup := by
      simpa [entryNode] using distinct
    have added : descend false (fun _ => addEntry ⟨[], e.1⟩ (.string e.2)) [name] .defined
        (es ++ [(name, .table .defined sub)]) =
        some (es ++ [(name, .table .defined (sub ++ [entryNode e]))]) := by
      rw [descend_last _ absent, addEntry_new _ here]
      rfl
    rw [List.map_cons, List.cons_append, entryStatement, addAll, added, Option.bind_eq_bind,
      Option.bind_some, ih later]
    simp

theorem addAll_tables {header : List String} {es : Entries}
    {tables : List (String × List (String × String))}
    (distinct : (es.names ++ tables.map Prod.fst).Nodup)
    (keys : ∀ t ∈ tables, (t.2.map Prod.fst).Nodup) :
    addAll header (tables.flatMap tableStatements) es = some (es ++ tables.map tableNode) := by
  induction tables generalizing header es with
  | nil => simp [addAll]
  | cons t tables ih =>
    rw [List.forall_mem_cons] at keys
    have here : t.1 ∉ es.names := fun mem =>
      (List.nodup_append.1 distinct).2.2 _ mem _ List.mem_cons_self rfl
    have later : (names (es ++ [tableNode t]) ++ tables.map Prod.fst).Nodup := by
      simpa [tableNode] using distinct
    have filled : addAll [t.1] (t.2.map entryStatement ++ tables.flatMap tableStatements)
        (es ++ [(t.1, .table .defined [])]) =
        addAll [t.1] (tables.flatMap tableStatements) (es ++ [tableNode t]) :=
      addAll_entries here (by simpa using keys.1) _
    rw [List.flatMap_cons, tableStatements, List.cons_append, addAll, addHeader_new here,
      Option.bind_eq_bind, Option.bind_some, List.nil_append, filled, ih later keys.2]
    simp

end Entries

/-- Tables with bare names, each once, and within each of them bare keys, each once. -/
structure Plain (tables : List (String × List (String × String))) : Prop where
  names : ∀ t ∈ tables, Bare t.1.toList
  keys : ∀ t ∈ tables, ∀ e ∈ t.2, Bare e.1.toList
  distinctNames : (tables.map Prod.fst).Nodup
  distinctKeys : ∀ t ∈ tables, (t.2.map Prod.fst).Nodup

theorem dropByteOrderMark_write (tables : List (String × List (String × String))) :
    dropByteOrderMark (write tables).toList = (write tables).toList := by
  rw [write, String.toList_ofList]
  cases tables with
  | nil => rfl
  | cons t tables =>
    cases tables with
    | nil => rfl
    | cons u tables => rfl

theorem read_write {tables : List (String × List (String × String))} (plain : Plain tables) :
    read (write tables) = some (tables.map tableNode) := by
  have lines : readLines ((write tables).toList.length + 1) (write tables).toList =
      some (tables.flatMap tableStatements) := by
    have lists := Lists.tables plain.names plain.keys
    rw [write, String.toList_ofList]
    exact lists _ (Nat.lt_succ_self _)
  have added : Entries.addAll [] (tables.flatMap tableStatements) [] =
      some (tables.map tableNode) := by
    have distinct : (Entries.names [] ++ tables.map Prod.fst).Nodup := plain.distinctNames
    exact Entries.addAll_tables distinct plain.distinctKeys
  rw [read, dropByteOrderMark_write]
  simp [lines, added]

end BuildCapture.Toml
