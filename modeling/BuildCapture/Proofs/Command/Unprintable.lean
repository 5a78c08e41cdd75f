import BuildCapture.Proofs.Command.Run
import BuildCapture.Proofs.Time.Pattern
set_option autoImplicit false

/-!
When a run ends without a printed timestamp. A date format that has been accepted prints every
instant unless it holds the specifier `%#z`, and then it prints none; so a run fails to print only
where the configuration asks for such a format, and every build captured under it fails.
-/

namespace BuildCapture

open Pattern (IsLoose)

theorem Snapshot.capture_eq_none_iff (mode : Mode) (r : Recording) (now : Instant)
    (format : DateFormat) : capture mode r now format = none ↔ IsLoose format.pattern := by
  rw [capture, Option.map_eq_none_iff, DateFormat.write_eq_none_iff]

theorem Envelope.new_eq_none_iff (data : Snapshot) (message : List String)
    (source sourceHost : String) (now : Instant) (format : DateFormat) :
    Envelope.new data message source sourceHost now format = none ↔ IsLoose format.pattern := by
  rw [Envelope.new, Option.map_eq_none_iff, DateFormat.write_eq_none_iff]

namespace Command

/-- The envelope has its timestamp in the format that the snapshot has, so it never fails alone. -/
theorem document_eq_none_iff (c : Config) (format : DateFormat) (r : Recording) (now : Instant)
    (o : SnapshotOptions) : document c format r now o = none ↔ IsLoose format.pattern := by
  have capture := Snapshot.capture_eq_none_iff (if o.delegated then .delegated else .direct) r now
    format
  rw [document, ← capture]
  cases captured : Snapshot.capture (if o.delegated then .delegated else .direct) r now format with
  | none => simp
  | some found =>
    have enveloped := Envelope.new_eq_none_iff found.1 o.message c.source c.sourceHost now format
    rw [← capture, captured] at enveloped
    cases sealed : Envelope.new found.1 o.message c.source c.sourceHost now format with
    | none => simp [sealed] at enveloped
    | some e => cases o.payload <;> simp [sealed]

theorem pattern_of_dateFormat {c : Config} {format : DateFormat} (h : dateFormat c = .ok format) :
    format.pattern = c.dateFormat := by
  unfold dateFormat Config.dateFormatter DateFormat.ofPattern at h
  split at h
  · cases h
    rfl
  · cases h

theorem perform_eq_ok_none_iff (files : Files) (clock : Instant) (a : Arguments) :
    perform files clock a = .ok none ↔
      ∃ o c format r, a.action = .snapshot o ∧ loadConfig files a.config = .ok c ∧
        dateFormat c = .ok format ∧ loadBuild files o.build = .ok r ∧ IsLoose c.dateFormat := by
  rw [perform_eq_ok_iff]
  constructor
  · rintro ⟨c, format, loaded, checked, rest⟩
    cases action : a.action with
    | parse => simp [action] at rest
    | snapshot o =>
      simp only [action] at rest
      obtain ⟨r, built, printed⟩ := rest
      have loose := (document_eq_none_iff c format r (o.now.getD clock) o).1
        (Option.map_eq_none_iff.1 printed.symm)
      exact ⟨o, c, format, r, rfl, loaded, checked, built, pattern_of_dateFormat checked ▸ loose⟩
  · rintro ⟨o, c, format, r, action, loaded, checked, built, loose⟩
    rw [← pattern_of_dateFormat checked, ← document_eq_none_iff c format r (o.now.getD clock) o]
      at loose
    refine ⟨c, format, loaded, checked, ?_⟩
    simp [action, built, loose]

/-- An accepted format prints every instant, unless its pattern holds `%#z`, and then it prints
none. So a run ends without a printed timestamp exactly where a build is to be captured, its
configuration and its file are accepted, and the configured date format holds `%#z`. -/
theorem unprintable_iff_loose (format : DateFormat) (t : Instant) (files : Files) (clock : Instant)
    (words : List String) :
    (format.write t = none ↔ IsLoose format.pattern) ∧
    (run files clock words = .unprintable ↔
      ∃ a o c format r, Arguments.read words = .ok a ∧ a.action = .snapshot o ∧
        loadConfig files a.config = .ok c ∧ dateFormat c = .ok format ∧
        loadBuild files o.build = .ok r ∧ IsLoose c.dateFormat) := by
  refine ⟨format.write_eq_none_iff t, (run_eq_iff none).trans ?_⟩
  constructor
  · rintro ⟨a, read, performed⟩
    obtain ⟨o, c, format, r, found⟩ := (perform_eq_ok_none_iff files clock a).1 performed
    exact ⟨a, o, c, format, r, read, found⟩
  · rintro ⟨a, o, c, format, r, read, found⟩
    exact ⟨a, read, (perform_eq_ok_none_iff files clock a).2 ⟨o, c, format, r, found⟩⟩

/-- The pattern `%#z` is accepted and prints no instant. -/
theorem looseOffset_accepted_unprintable :
    ∃ format, DateFormat.ofPattern "%#z" = .ok format ∧
      format.write ⟨0, 0, by decide, by decide, by decide⟩ = none :=
  ⟨⟨"%#z", [.looseOffset], by decide⟩, rfl, rfl⟩

end Command

end BuildCapture
