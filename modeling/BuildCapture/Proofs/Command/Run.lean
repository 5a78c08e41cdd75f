import BuildCapture.Command.Run
import BuildCapture.Proofs.Checked
set_option autoImplicit false

namespace BuildCapture.Command

/-- An action that does not fail has a configuration with a date format, and if it captures a build,
that build. -/
theorem perform_eq_ok_iff {files : Files} {clock : Instant} {a : Arguments}
    {printed : Option String} :
    perform files clock a = .ok printed ↔
      ∃ c format, loadConfig files a.config = .ok c ∧ dateFormat c = .ok format ∧
        match a.action with
        | .parse => printed = some c.toToml
        | .snapshot o => ∃ r, loadBuild files o.build = .ok r ∧
            printed = (document c format r (o.now.getD clock) o).map (printJson o.pretty) := by
  obtain ⟨config, parse | o⟩ := a
  · simp [perform, bind_eq_ok_iff, pure, Except.pure, eq_comm (a := printed)]
  · simp [perform, bind_eq_ok_iff, pure, Except.pure, eq_comm (a := printed)]

theorem run_eq_iff {files : Files} {clock : Instant} {words : List String}
    (printed : Option String) :
    run files clock words = printed.elim .unprintable .printed ↔
      ∃ a, Arguments.read words = .ok a ∧ perform files clock a = .ok printed := by
  rw [run]
  cases read : Arguments.read words with
  | error stop => cases printed <;> simp
  | ok a =>
    cases performed : perform files clock a with
    | error failure => cases printed <;> simp [performed]
    | ok found => cases found <;> cases printed <;> simp [performed]

end BuildCapture.Command
