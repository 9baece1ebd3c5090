import DotTarget.Proofs.Document.Offsets
import DotTarget.Proofs.Lexical.ScanPlaces

set_option autoImplicit false

/-! # What the cap does to a scan

The cap of a scan only cuts its walk short. A walk that converged does not change under a larger cap
(`Scan.walk_add_of_converged`); one that did not is the first part of the longer walk, whose second
part is the walk from where it stopped (`Scan.walk_add`). That second part can be had from a new
scan, because the places of a walk stay where they are when they are clamped again
(`Scan.clamp_start_of_walk`).

Every step that moves lowers the number of bytes before the place, so a walk converges within one
step more than there are bytes before it (`Scan.converged_of_offsetIn_lt`). -/

namespace DotTarget

namespace Scan

/-! ## Walks under two caps -/

variable {lines : List Text}

/-- A walk takes at most as many steps as its cap allows, and all of them unless it converges. -/
theorem iterations_of_walk {cap : Nat} {place : Position} {w : Walk}
    (h : walk lines cap place = .ok w) :
    w.iterations ≤ cap ∧ (w.converged = false → w.iterations = cap) := by
  induction cap generalizing place w with
  | zero =>
    obtain rfl := Except.ok.inj h
    exact ⟨Nat.le_refl _, fun _ => rfl⟩
  | succ cap ih =>
    obtain ⟨-, rfl⟩ | ⟨-, rest, hrest, rfl⟩ := walk_succ_cases h
    · exact ⟨Nat.le_add_left 1 cap, fun hconverged => Bool.noConfusion hconverged⟩
    · obtain ⟨hle, heq⟩ := ih hrest
      exact ⟨Nat.succ_le_succ hle, fun hconverged => congrArg Nat.succ (heq hconverged)⟩

/-- A walk that converged stays as it is under a larger cap. -/
theorem walk_add_of_converged {n : Nat} (k : Nat) {place : Position} {w : Walk}
    (h : walk lines n place = .ok w) (hconverged : w.converged = true) :
    walk lines (n + k) place = .ok w := by
  induction n generalizing place w with
  | zero =>
    obtain rfl := Except.ok.inj h
    exact Bool.noConfusion hconverged
  | succ n ih =>
    rw [Nat.add_right_comm]
    obtain ⟨hstay, rfl⟩ | ⟨hlt, rest, hrest, rfl⟩ := walk_succ_cases h
    · exact walk_of_step_eq (n + k) hstay
    · exact walk_of_step_lt hlt (ih hrest hconverged)

/-- **A longer walk is a walk cut short and the walk from there.** -/
theorem walk_add {n k : Nat} {place : Position} {w rest : Walk}
    (h : walk lines n place = .ok w) (hconverged : w.converged = false)
    (hrest : walk lines k w.start = .ok rest) :
    walk lines (n + k) place = .ok ⟨rest.start, w.iterations + rest.iterations,
      w.mismatches + rest.mismatches, rest.converged⟩ := by
  induction n generalizing place w with
  | zero =>
    obtain rfl := Except.ok.inj h
    rw [Nat.zero_add, hrest]
    simp only [Nat.zero_add]
  | succ n ih =>
    obtain ⟨-, rfl⟩ | ⟨hlt, next, hnext, rfl⟩ := walk_succ_cases h
    · exact Bool.noConfusion hconverged
    · rw [Nat.add_right_comm, walk_of_step_lt hlt (ih hnext hconverged hrest)]
      simp only [Nat.add_assoc, Nat.add_comm 1]

/-- Where a walk converges, a step moves nothing. -/
theorem step_start_of_converged {cap : Nat} {place : Position} {w : Walk}
    (h : walk lines cap place = .ok w) (hconverged : w.converged = true) :
    (step lines w.start).1 = w.start := by
  induction cap generalizing place w with
  | zero =>
    obtain rfl := Except.ok.inj h
    exact Bool.noConfusion hconverged
  | succ cap ih =>
    obtain ⟨hstay, rfl⟩ | ⟨-, rest, hrest, rfl⟩ := walk_succ_cases h
    · exact hstay
    · exact ih (w := rest) hrest hconverged

theorem start_of_step_eq {cap : Nat} {place : Position} {w : Walk}
    (h : walk lines cap place = .ok w) (hstay : (step lines place).1 = place) :
    w.start = place := by
  cases cap with
  | zero =>
    obtain rfl := Except.ok.inj h
    rfl
  | succ cap =>
    obtain rfl := Except.ok.inj ((walk_of_step_eq cap hstay).symm.trans h)
    rfl

/-! ## Clamped places -/

theorem clamp_clamp (lines : List Text) (place : Position) :
    clamp lines (clamp lines place) = clamp lines place := by
  cases hline : lines[place.row]? with
  | none => simp only [clamp, hline]
  | some line =>
    refine clamp_of_isPlace ⟨line, Text.cut line place.column, ?_, Text.cut_prefix _ _, ?_⟩
    · simp only [clamp, hline]
    · simp only [clamp, hline]

/-- From a clamped place a step that moves leads to a place. -/
theorem isPlace_of_step_lt {place : Position} (hplace : clamp lines place = place)
    (hlt : (step lines place).1 < place) : IsPlace lines (step lines place).1 := by
  cases hline : lines[place.row]? with
  | none =>
    have hstay : (step lines place).1 = place := by simp only [step, hline]
    rw [hstay] at hlt
    exact absurd (Position.le_refl place) (Position.lt_iff_not_le.1 hlt)
  | some line =>
    refine (step_le_and_isPlace lines place).2
      ⟨line, Text.cut line place.column, hline, Text.cut_prefix _ _, ?_⟩
    simp only [clamp, hline] at hplace
    exact congrArg Position.column hplace

/-- A walk from a clamped place ends at a clamped place. -/
theorem clamp_start_of_walk {cap : Nat} {place : Position} {w : Walk}
    (hplace : clamp lines place = place) (h : walk lines cap place = .ok w) :
    clamp lines w.start = w.start := by
  induction cap generalizing place w with
  | zero =>
    obtain rfl := Except.ok.inj h
    exact hplace
  | succ cap ih =>
    obtain ⟨-, rfl⟩ | ⟨hlt, rest, hrest, rfl⟩ := walk_succ_cases h
    · exact hplace
    · exact ih (w := rest) (clamp_of_isPlace (isPlace_of_step_lt hplace hlt)) hrest

/-- **A walk converges once its cap exceeds the number of bytes before its place:** every step that
moves leaves fewer of them. -/
theorem converged_of_offsetIn_lt {cap : Nat} {place : Position} {w : Walk}
    (hplace : clamp lines place = place) (h : walk lines cap place = .ok w)
    (hcap : place.offsetIn lines < cap) : w.converged = true := by
  induction cap generalizing place w with
  | zero => exact absurd hcap (Nat.not_lt_zero _)
  | succ cap ih =>
    obtain ⟨-, rfl⟩ | ⟨hlt, rest, hrest, rfl⟩ := walk_succ_cases h
    · rfl
    · have hnext := isPlace_of_step_lt hplace hlt
      have hfewer := Position.offsetIn_lt_offsetIn hnext.inLines hlt
      exact ih (w := rest) (clamp_of_isPlace hnext) hrest (by omega)

end Scan

/-- **The cap of a scan only truncates it.** Take the outcome of a scan under a cap `n`.

* It took at most `n` steps, and exactly `n` if it did not converge.
* Under a larger cap the scan starts at the same place or further left, and if it converged under
  `n` its outcome is the same.
* A new scan from one column right of its start goes on where it stopped: if it did not converge,
  the scan under cap `n + k` is put together from it and from the new scan under cap `k`; if it did
  converge, the new scan finds nothing.
* It converged if `n` is larger than the number of bytes before its end.

Steps and mismatches are counted in natural numbers. Counters of 32 bits hold the same numbers as
long as the caps and the opening brackets of the document are fewer than `counterLimit`
(`checkedScan_eq_scan`). -/
theorem scan_cap_truncates (lines : List Text) (place : Position) (n : Nat) :
    ∃ short, scan lines place n = .ok short ∧
      short.iterations ≤ n ∧ (short.converged = false → short.iterations = n) ∧
      (∀ m, n ≤ m → ∃ long, scan lines place m = .ok long ∧
        long.span.start ≤ short.span.start ∧ (short.converged = true → long = short)) ∧
      (∀ k, ∃ again,
        scan lines ⟨short.span.start.row, short.span.start.column + 1⟩ k = .ok again ∧
        (short.converged = false → scan lines place (n + k) = .ok
          ⟨⟨again.span.start, short.span.stop⟩, short.iterations + again.iterations,
            short.mismatches + again.mismatches, again.converged⟩) ∧
        (short.converged = true → again.span.isEmpty = true)) ∧
      (short.span.stop.offsetIn lines < n → short.converged = true) := by
  have hstop := Scan.clamp_clamp lines (place.shiftedLeft 1)
  obtain ⟨w, hw, -⟩ := Scan.walk_eq_ok lines n (Scan.clamp lines (place.shiftedLeft 1))
  have hstart := Scan.clamp_start_of_walk hstop hw
  obtain ⟨hle, heq⟩ := Scan.iterations_of_walk hw
  refine ⟨_, Scan.scan_of_walk hw, hle, heq, ?_, ?_, Scan.converged_of_offsetIn_lt hstop hw⟩
  · intro m hm
    obtain ⟨k, rfl⟩ := Nat.exists_eq_add_of_le hm
    cases hconverged : w.converged with
    | true =>
      refine ⟨_, Scan.scan_of_walk (Scan.walk_add_of_converged k hw hconverged),
        Position.le_refl _, ?_⟩
      intro _
      rw [hconverged]
    | false =>
      obtain ⟨rest, hrest, hleft, -⟩ := Scan.walk_eq_ok lines k w.start
      refine ⟨_, Scan.scan_of_walk (Scan.walk_add hw hconverged hrest), hleft, ?_⟩
      intro h
      exact Bool.noConfusion h
  · intro k
    obtain ⟨rest, hrest, -⟩ := Scan.walk_eq_ok lines k w.start
    have hend : Scan.clamp lines
        ((⟨w.start.row, w.start.column + 1⟩ : Position).shiftedLeft 1) = w.start := hstart
    have hagain := hrest
    rw [← hend] at hagain
    refine ⟨_, Scan.scan_of_walk hagain, ?_, ?_⟩
    · intro hconverged
      exact Scan.scan_of_walk (Scan.walk_add hw hconverged hrest)
    · intro hconverged
      have hsame := Scan.start_of_step_eq hrest (Scan.step_start_of_converged hw hconverged)
      simp only [Span.isEmpty, hsame, hend, decide_true]

/-- A call over two rows, closed by a bracket of another kind, of a name with two bytes. -/
def cappedRows : List Text :=
  ["é(".toList, " 1]".toList]

/-- The scan of these rows cut short after its first step, which finds the bracket, goes on to the
name when it is started again there. -/
theorem scan_cap_truncates_cappedRows :
    scan cappedRows ⟨1, 4⟩ 1 = .ok ⟨⟨⟨0, 2⟩, ⟨1, 3⟩⟩, 1, 1, false⟩ ∧
      scan cappedRows ⟨0, 3⟩ 4 = .ok ⟨⟨⟨0, 0⟩, ⟨0, 2⟩⟩, 2, 0, true⟩ ∧
      scan cappedRows ⟨1, 4⟩ 5 = .ok ⟨⟨⟨0, 0⟩, ⟨1, 3⟩⟩, 3, 1, true⟩ ∧
      (⟨1, 3⟩ : Position).offsetIn cappedRows < 8 ∧
      ∃ long, scan cappedRows ⟨1, 4⟩ 8 = .ok long ∧ long.converged = true ∧
        long.span.stop = ⟨1, 3⟩ := by
  have hone : scan cappedRows ⟨1, 4⟩ 1 = .ok ⟨⟨⟨0, 2⟩, ⟨1, 3⟩⟩, 1, 1, false⟩ := by decide
  have hagain : scan cappedRows ⟨0, 3⟩ 4 = .ok ⟨⟨⟨0, 0⟩, ⟨0, 2⟩⟩, 2, 0, true⟩ := by decide
  have hbytes : (⟨1, 3⟩ : Position).offsetIn cappedRows < 8 := by decide
  obtain ⟨short, hshort, -, -, -, hrestart, -⟩ := scan_cap_truncates cappedRows ⟨1, 4⟩ 1
  obtain rfl := Except.ok.inj (hone.symm.trans hshort)
  obtain ⟨again, hscan, hlong, -⟩ := hrestart 4
  obtain rfl := Except.ok.inj (hagain.symm.trans hscan)
  obtain ⟨long, hcapped, -, -, -, -, hconverged⟩ := scan_cap_truncates cappedRows ⟨1, 4⟩ 8
  obtain ⟨outcome, houtcome, hstop, -⟩ := scan_eq_ok cappedRows ⟨1, 4⟩ 8
  obtain rfl := Except.ok.inj (hcapped.symm.trans houtcome)
  have hend : long.span.stop = ⟨1, 3⟩ := hstop.trans (by decide)
  refine ⟨hone, hagain, hlong rfl, hbytes, long, hcapped, hconverged ?_, hend⟩
  rwa [hend]

end DotTarget
