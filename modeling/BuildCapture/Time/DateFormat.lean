import BuildCapture.Text.Quoted
import BuildCapture.Time.Pattern.Writer
set_option autoImplicit false

namespace BuildCapture

structure DateFormat where
  pattern : String
  items : List Pattern.Item
  reads : Pattern.read pattern = some items

structure InvalidPattern where
  pattern : String
  deriving DecidableEq, Repr

def InvalidPattern.message (e : InvalidPattern) : String :=
  "Invalid date format " ++ Text.quoted e.pattern

namespace DateFormat

def ofPattern (pattern : String) : Except InvalidPattern DateFormat :=
  match h : Pattern.read pattern with
  | some items => .ok ⟨pattern, items, h⟩
  | none => .error ⟨pattern⟩

theorem ext_pattern {f g : DateFormat} (h : f.pattern = g.pattern) : f = g := by
  obtain ⟨p, items, hp⟩ := f
  obtain ⟨q, items', hq⟩ := g
  cases h
  have : items = items' := Option.some.inj (hp.symm.trans hq)
  subst this; rfl

instance : DecidableEq DateFormat := fun f g =>
  if h : f.pattern = g.pattern then isTrue (ext_pattern h) else isFalse fun e => h (e ▸ rfl)

def defaultPattern : String := "%Y-%m-%dT%H:%M:%S%.3f%z"

def defaultItems : List Pattern.Item :=
  open Pattern in
  [zeros .year, .text '-', zeros .month, .text '-', zeros .day, .text 'T'] ++ clockTime ++
    [.fractionDigits true 3, .offset .packed]

instance : Inhabited DateFormat where
  default := ⟨defaultPattern, defaultItems, by decide⟩

/-- The text of an instant; none if the pattern holds an item without a printed form. -/
def write (f : DateFormat) (t : Instant) : Option String :=
  (Pattern.wire f.items t).map String.ofList

end DateFormat

end BuildCapture
