import BuildCapture.Proofs.Toml.Documents
import Mathlib.Data.List.Infix
import Mathlib.Data.List.Nodup
set_option autoImplicit false

/-!
A document holds each key once, in every one of its tables (`distinct_of_read`). Whatever adds to a
table looks first whether the key is there; so this holds of tables as they are built up, by
headers, by dotted keys and as values, and at any depth.
-/

namespace BuildCapture.Toml

section
variable {α : Type} {name : String} {l : List (String × α)}

theorem not_mem_of_lookup (absent : l.lookup name = none) : name ∉ l.map Prod.fst := by
  intro mem
  obtain ⟨e, held, rfl⟩ := List.mem_map.1 mem
  exact absurd rfl (bne_iff_ne.1 (List.lookup_eq_none_iff.1 absent e held))

theorem mem_of_lookup {value : α} (found : l.lookup name = some value) : (name, value) ∈ l := by
  obtain ⟨_, _, rfl, -⟩ := List.lookup_eq_some_iff.1 found
  simp

end

def Node.children : Node → List Node
  | .array items | .tables items => items
  | .table _ entries => entries.map Prod.snd
  | .string _ | .int _ | .float _ | .bool _ | .dateTime => []

def Node.keys : Node → List String
  | .table _ entries => entries.map Prod.fst
  | .array _ | .tables _ | .string _ | .int _ | .float _ | .bool _ | .dateTime => []

/-- No table in the node holds a key twice. -/
inductive Node.Distinct : Node → Prop where
  | intro {node : Node} (keys : node.keys.Nodup) (children : ∀ n ∈ node.children, n.Distinct) :
    node.Distinct

theorem Node.Distinct.of_leaf {node : Node} (keys : node.keys = [])
    (children : node.children = []) : node.Distinct :=
  .intro (keys ▸ List.nodup_nil) (by simp [children])

theorem Node.Distinct.of_mem {node n : Node} (h : node.Distinct) (mem : n ∈ node.children) :
    n.Distinct := by
  cases h with
  | intro _ children => exact children n mem

namespace Entries

structure Distinct (es : Entries) : Prop where
  names : es.names.Nodup
  nodes : ∀ e ∈ es, e.2.Distinct

section
variable {es es' : Entries} {name : String} {node : Node} {origin : Origin}

theorem distinct_nil : Distinct [] := ⟨List.nodup_nil, by simp⟩

theorem distinct_table_iff : (Node.table origin es).Distinct ↔ Distinct es := by
  constructor
  · intro ⟨keys, children⟩
    exact ⟨keys, fun e mem => children e.2 (List.mem_map_of_mem mem)⟩
  · intro h
    exact .intro h.names fun n mem => by
      obtain ⟨e, held, rfl⟩ := List.mem_map.1 mem
      exact h.nodes e held

theorem lookup_remove (name : String) (es : Entries) : (remove name es).lookup name = none :=
  lookup_eq_none (by simp [remove])

namespace Distinct

theorem node_of_lookup (h : es.Distinct) (found : es.lookup name = some node) : node.Distinct :=
  h.nodes _ (mem_of_lookup found)

theorem concat (h : es.Distinct) (absent : es.lookup name = none) (fresh : node.Distinct) :
    Distinct (es ++ [(name, node)]) where
  names := by
    rw [Entries.names, List.map_append, List.map_singleton, ← List.concat_eq_append]
    exact h.names.concat (not_mem_of_lookup absent)
  nodes := by
    intro e mem
    rcases List.mem_append.1 mem with held | last
    · exact h.nodes e held
    · exact List.mem_singleton.1 last ▸ fresh

theorem replace (h : es.Distinct) (fresh : node.Distinct) :
    Distinct (Entries.replace name node es) where
  names := by
    have same : (Entries.replace name node es).names = es.names := by
      rw [Entries.replace, Entries.names, List.map_map]
      refine List.map_congr_left fun e _ => ?_
      show (if e.1 = name then (name, node) else e).1 = e.1
      split <;> simp_all
    exact same ▸ h.names
  nodes := by
    intro e mem
    obtain ⟨old, held, rfl⟩ := List.mem_map.1 mem
    split
    · exact fresh
    · exact h.nodes old held

theorem remove (h : es.Distinct) : Distinct (Entries.remove name es) where
  names := (List.filter_sublist.map Prod.fst).nodup h.names
  nodes := fun e mem => h.nodes e ((List.mem_filter.1 mem).1)

end Distinct

theorem Distinct.addNew (h : es.Distinct) (fresh : node.Distinct)
    (added : Entries.addNew name node es = some es') : es'.Distinct := by
  unfold Entries.addNew at added
  split at added
  case isTrue => cases added
  case isFalse absent =>
    cases added
    exact h.concat (Option.not_isSome_iff_eq_none.1 absent) fresh

end

theorem Distinct.descend {dotted : Bool} {change : Origin → Entries → Option Entries}
    (keeps : ∀ {origin es es'}, Distinct es → change origin es = some es' → Distinct es')
    {path : List String} {origin : Origin} {es es' : Entries} (h : es.Distinct)
    (changed : Entries.descend dotted change path origin es = some es') : es'.Distinct := by
  induction path generalizing origin es es' with
  | nil => exact keeps h changed
  | cons name path ih =>
    rw [Entries.descend] at changed
    split at changed
    case h_1 absent =>
      obtain ⟨sub, below, rfl⟩ := Option.map_eq_some_iff.1 changed
      exact h.concat absent (distinct_table_iff.2 (ih distinct_nil below))
    case h_2 found =>
      split at changed
      case isTrue => cases changed
      case isFalse =>
        obtain ⟨sub, below, rfl⟩ := Option.map_eq_some_iff.1 changed
        have held := distinct_table_iff.1 (h.node_of_lookup found)
        exact h.replace (distinct_table_iff.2 (ih held below))
    case h_3 items found =>
      -- The way goes through the last table of the array; the others stay.
      have held : ∀ n ∈ items, n.Distinct := fun n mem => (h.node_of_lookup found).of_mem mem
      split at changed
      case h_1 last =>
        obtain ⟨sub, below, rfl⟩ := Option.map_eq_some_iff.1 changed
        have lastHeld := distinct_table_iff.1 (held _ (List.mem_of_getLast? last))
        refine h.replace (.intro List.nodup_nil fun n mem => ?_)
        rcases List.mem_append.1 mem with earlier | new
        · exact held n (List.mem_of_mem_dropLast earlier)
        · exact List.mem_singleton.1 new ▸ distinct_table_iff.2 (ih lastHeld below)
      case h_2 => cases changed
    case h_4 => cases changed

theorem Distinct.addEntry {path : KeyPath} {node : Node} {es es' : Entries} (h : es.Distinct)
    (fresh : node.Distinct) (added : Entries.addEntry path node es = some es') : es'.Distinct := by
  refine h.descend (fun held changed => ?_) added
  split at changed
  case isTrue => exact held.addNew fresh changed
  case isFalse => cases changed

theorem Distinct.addHeader {path : KeyPath} {es es' : Entries} (h : es.Distinct)
    (added : Entries.addHeader path es = some es') : es'.Distinct := by
  refine h.descend (fun held changed => ?_) added
  split at changed
  case h_1 absent =>
    cases changed
    exact held.concat absent (distinct_table_iff.2 distinct_nil)
  case h_2 found =>
    cases changed
    have same := distinct_table_iff.1 (held.node_of_lookup found)
    exact held.remove.concat (lookup_remove _ _) (distinct_table_iff.2 same)
  case h_3 => cases changed

theorem Distinct.addTable {path : KeyPath} {es es' : Entries} (h : es.Distinct)
    (added : Entries.addTable path es = some es') : es'.Distinct := by
  have empty : (Node.table .defined []).Distinct := distinct_table_iff.2 distinct_nil
  refine h.descend (fun held changed => ?_) added
  split at changed
  case h_1 absent =>
    cases changed
    refine held.concat absent (.intro List.nodup_nil fun n mem => ?_)
    exact List.mem_singleton.1 mem ▸ empty
  case h_2 items found =>
    cases changed
    refine held.replace (.intro List.nodup_nil fun n mem => ?_)
    rcases List.mem_append.1 mem with earlier | new
    · exact (held.node_of_lookup found).of_mem earlier
    · exact List.mem_singleton.1 new ▸ empty
  case h_3 => cases changed

end Entries

def Statement.Distinct : Statement → Prop
  | .entry _ value => value.Distinct
  | .header _ | .tablesHeader _ => True

theorem Entries.Distinct.addAll {header : List String} {l : List Statement} {es es' : Entries}
    (h : es.Distinct) (values : ∀ statement ∈ l, statement.Distinct)
    (added : Entries.addAll header l es = some es') : es'.Distinct := by
  induction l generalizing header es with
  | nil =>
    cases added
    exact h
  | cons statement l ih =>
    have ⟨first, later⟩ := List.forall_mem_cons.1 values
    cases statement with
    | header path =>
      obtain ⟨_, opened, added⟩ := Option.bind_eq_some_iff.1 added
      exact ih (h.addHeader opened) later added
    | tablesHeader path =>
      obtain ⟨_, opened, added⟩ := Option.bind_eq_some_iff.1 added
      exact ih (h.addTable opened) later added
    | entry path value =>
      obtain ⟨_, entered, added⟩ := Option.bind_eq_some_iff.1 added
      exact ih (h.descend (fun held changed => held.addEntry first changed) entered) later added

theorem distinct_intNode {n : Int} {node : Node} (h : intNode? n = some node) : node.Distinct := by
  unfold intNode? at h
  split at h
  · cases h
    exact .of_leaf rfl rfl
  · cases h

theorem distinct_floatNode {negative : Bool} {digits : List Char} {exponent : Int} {node : Node}
    (h : floatNode? negative digits exponent = some node) : node.Distinct := by
  unfold floatNode? at h
  split at h
  · cases h
    exact .of_leaf rfl rfl
  · split at h
    · cases h
      exact .of_leaf rfl rfl
    · cases h

theorem distinct_readBased {base : Nat} {isDigit : Char → Bool} {s : List Char}
    {r : Node × List Char} (h : readBased base isDigit s = some r) : r.1.Distinct := by
  obtain ⟨_, -, h⟩ := Option.bind_eq_some_iff.1 h
  obtain ⟨_, node, h⟩ := Option.bind_eq_some_iff.1 h
  cases h
  exact distinct_intNode node

theorem distinct_readDecimal {negative : Bool} {s : List Char} {r : Node × List Char}
    (h : readDecimal negative s = some r) : r.1.Distinct := by
  obtain ⟨_, -, h⟩ := Option.bind_eq_some_iff.1 h
  obtain ⟨_, -, h⟩ := Option.bind_eq_some_iff.1 h
  obtain ⟨_, -, h⟩ := Option.bind_eq_some_iff.1 h
  dsimp only at h
  split at h
  · obtain ⟨_, node, h⟩ := Option.bind_eq_some_iff.1 h
    cases h
    exact distinct_intNode node
  · obtain ⟨_, node, h⟩ := Option.bind_eq_some_iff.1 h
    cases h
    exact distinct_floatNode node

theorem distinct_readSigned {negative : Bool} {s : List Char} {r : Node × List Char}
    (h : readSigned negative s = some r) : r.1.Distinct := by
  unfold readSigned at h
  split at h
  case h_1 | h_2 =>
    cases h
    exact .of_leaf rfl rfl
  case h_3 => exact distinct_readDecimal h

theorem distinct_readNumber {s : List Char} {r : Node × List Char} (h : readNumber s = some r) :
    r.1.Distinct := by
  unfold readNumber at h
  split at h
  case h_1 | h_2 | h_3 => exact distinct_readBased h
  case h_4 | h_5 | h_6 => exact distinct_readSigned h

/-- What the readers of values, of items and of entries leave to each other, with so many steps. -/
structure ReadsDistinct (steps : Nat) : Prop where
  value : ∀ {room s r}, readValue steps room s = some r → r.1.Distinct
  items : ∀ {room s r}, readItems steps room s = some r → ∀ n ∈ r.1, n.Distinct
  entries : ∀ {room es s r}, es.Distinct → readEntries steps room es s = some r → r.1.Distinct

namespace ReadsDistinct
variable {steps room : Nat} {s : List Char} (ih : ReadsDistinct steps)
include ih

theorem value_succ {r : Node × List Char} (h : readValue (steps + 1) room s = some r) :
    r.1.Distinct := by
  rw [readValue.eq_def] at h
  dsimp only at h
  split at h
  case h_1 | h_2 =>
    obtain ⟨_, -, rfl⟩ := Option.map_eq_some_iff.1 h
    exact .of_leaf rfl rfl
  case h_3 =>
    split at h
    · cases h
    · obtain ⟨_, items, rfl⟩ := Option.map_eq_some_iff.1 h
      exact .intro List.nodup_nil (ih.items items)
  case h_4 =>
    split at h
    · cases h
    · split at h
      · cases h
        exact Entries.distinct_table_iff.2 Entries.distinct_nil
      · obtain ⟨_, entries, rfl⟩ := Option.map_eq_some_iff.1 h
        exact Entries.distinct_table_iff.2 (ih.entries Entries.distinct_nil entries)
  case h_5 | h_6 =>
    cases h
    exact .of_leaf rfl rfl
  case h_7 =>
    split at h
    · cases h
      exact .of_leaf rfl rfl
    · exact distinct_readNumber h

theorem items_succ {r : List Node × List Char} (h : readItems (steps + 1) room s = some r) :
    ∀ n ∈ r.1, n.Distinct := by
  rw [readItems.eq_def] at h
  split at h
  case h_1 => cases h
  case h_2 =>
    cases h
    simp
  case h_3 same _ =>
    cases same
    obtain ⟨⟨item, rest⟩, value, h⟩ := Option.bind_eq_some_iff.1 h
    have first := ih.value value
    dsimp only at h
    split at h
    · obtain ⟨_, items, h⟩ := Option.bind_eq_some_iff.1 h
      cases h
      exact List.forall_mem_cons.2 ⟨first, ih.items items⟩
    · cases h
      exact fun n mem => List.mem_singleton.1 mem ▸ first
    · cases h

theorem entries_succ {es : Entries} (distinct : es.Distinct) {r : Entries × List Char}
    (h : readEntries (steps + 1) room es s = some r) : r.1.Distinct := by
  obtain ⟨_, -, h⟩ := Option.bind_eq_some_iff.1 h
  obtain ⟨_, -, h⟩ := Option.bind_eq_some_iff.1 h
  obtain ⟨_, value, h⟩ := Option.bind_eq_some_iff.1 h
  obtain ⟨_, added, h⟩ := Option.bind_eq_some_iff.1 h
  have more := distinct.addEntry (ih.value value) added
  split at h
  · exact ih.entries more h
  · cases h
    exact more
  · cases h

end ReadsDistinct

theorem readsDistinct (steps : Nat) : ReadsDistinct steps := by
  -- The readers call each other with one step less, so one induction carries all three.
  induction steps with
  | zero => exact ⟨(nomatch ·), (nomatch ·), fun _ h => nomatch h⟩
  | succ steps ih =>
    exact ⟨ih.value_succ, ih.items_succ, fun distinct h => ih.entries_succ distinct h⟩

theorem distinct_readStatement {s : List Char} {r : Statement × List Char}
    (h : readStatement s = some r) : r.1.Distinct := by
  unfold readStatement at h
  split at h
  case h_1 =>
    obtain ⟨_, -, h⟩ := Option.bind_eq_some_iff.1 h
    obtain ⟨_, -, h⟩ := Option.bind_eq_some_iff.1 h
    obtain ⟨_, -, h⟩ := Option.bind_eq_some_iff.1 h
    cases h
    exact trivial
  case h_2 =>
    obtain ⟨_, -, h⟩ := Option.bind_eq_some_iff.1 h
    obtain ⟨_, -, h⟩ := Option.bind_eq_some_iff.1 h
    cases h
    exact trivial
  case h_3 =>
    obtain ⟨_, -, h⟩ := Option.bind_eq_some_iff.1 h
    obtain ⟨_, -, h⟩ := Option.bind_eq_some_iff.1 h
    obtain ⟨_, value, h⟩ := Option.bind_eq_some_iff.1 h
    cases h
    exact (readsDistinct _).value value

theorem distinct_readLines {steps : Nat} {s : List Char} {l : List Statement}
    (h : readLines steps s = some l) : ∀ statement ∈ l, statement.Distinct := by
  induction steps generalizing s l with
  | zero => cases h
  | succ steps ih =>
    rw [readLines.eq_def] at h
    dsimp only at h
    split at h
    case h_1 =>
      cases h
      simp
    case h_2 =>
      split at h
      · obtain ⟨_, -, h⟩ := Option.bind_eq_some_iff.1 h
        exact ih h
      · obtain ⟨_, statement, h⟩ := Option.bind_eq_some_iff.1 h
        obtain ⟨_, -, h⟩ := Option.bind_eq_some_iff.1 h
        obtain ⟨_, later, h⟩ := Option.bind_eq_some_iff.1 h
        cases h
        exact List.forall_mem_cons.2 ⟨distinct_readStatement statement, ih later⟩

theorem distinct_of_read {s : String} {es : Entries} (h : read s = some es) : es.Distinct := by
  obtain ⟨_, lines, added⟩ := Option.bind_eq_some_iff.1 h
  exact Entries.distinct_nil.addAll (distinct_readLines lines) added

end BuildCapture.Toml
