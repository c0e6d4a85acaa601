import FilterClause.Proofs.CommandOutput
import Mathlib.Data.String.Basic

/-!
# Output that does not fit

A command that fails does so before it writes. A command that succeeds writes all of its text or, where
there is no room for that, stops with the error of the sink, and what it has written by then begins the
text (`Command.run_bounded`).

The text need not reach the sink line by line. So the statement is about every way to cut it into
pieces (`Cutting`), of which the lines are one (`Command.run_eq_runCut`). A bounded sink takes the
pieces as long as there is room for one more (`Sink.writeAll_bounded`).
-/

namespace FilterClause

/-! ## Pieces that fit -/

namespace Sink

/-- Pieces that fit together are all taken. -/
theorem writeAll_of_le (limit : ℕ) (held : String) (pieces : List String)
    (h : (held ++ String.join pieces).utf8ByteSize ≤ limit) :
    writeAll ⟨some limit, held⟩ pieces = (.ok (), ⟨some limit, held ++ String.join pieces⟩) := by
  induction pieces generalizing held with
  | nil => simp [writeAll]
  | cons piece pieces ih =>
    rw [String.join_cons, ← String.append_assoc] at h ⊢
    have hroom : held.utf8ByteSize + piece.utf8ByteSize ≤ limit := by
      simp only [String.utf8ByteSize_append] at h
      omega
    have hwrite : write ⟨some limit, held⟩ piece = (.ok (), ⟨some limit, held ++ piece⟩) :=
      if_pos (decide_eq_true hroom)
    rw [writeAll, hwrite]
    exact ih _ h

/-- Of pieces that do not fit together, some are taken and then one is refused. -/
theorem writeAll_of_lt (limit : ℕ) (held : String) (pieces : List String)
    (hheld : held.utf8ByteSize ≤ limit) (h : limit < (held ++ String.join pieces).utf8ByteSize) :
    ∃ written rest, String.join pieces = written ++ rest ∧
      writeAll ⟨some limit, held⟩ pieces =
        (.error (.io none .full), ⟨some limit, held ++ written⟩) := by
  induction pieces generalizing held with
  | nil =>
    rw [String.join_nil, String.append_empty] at h
    omega
  | cons piece pieces ih =>
    by_cases hroom : held.utf8ByteSize + piece.utf8ByteSize ≤ limit
    · have hwrite : write ⟨some limit, held⟩ piece = (.ok (), ⟨some limit, held ++ piece⟩) :=
        if_pos (decide_eq_true hroom)
      rw [String.join_cons, ← String.append_assoc] at h
      obtain ⟨written, rest, hjoin, hrun⟩ := ih _ (by rwa [String.utf8ByteSize_append]) h
      refine ⟨piece ++ written, rest, ?_, ?_⟩
      · rw [String.join_cons, hjoin, String.append_assoc]
      · rw [writeAll, hwrite, ← String.append_assoc]
        exact hrun
    · have hwrite : write ⟨some limit, held⟩ piece = (.error (.io none .full), ⟨some limit, held⟩) :=
        if_neg (by simpa [hasRoom] using hroom)
      refine ⟨"", String.join (piece :: pieces), by rw [String.empty_append], ?_⟩
      rw [writeAll, hwrite, String.append_empty]

/-- A bounded sink takes all pieces if and only if they fit together; otherwise it has taken those at
the front when it refuses one. -/
theorem writeAll_bounded (limit : ℕ) (pieces : List String) :
    (writeAll (.bounded limit) pieces = (.ok (), ⟨some limit, String.join pieces⟩) ↔
      (String.join pieces).utf8ByteSize ≤ limit) ∧
    (¬ (String.join pieces).utf8ByteSize ≤ limit → ∃ written rest,
      String.join pieces = written ++ rest ∧
        writeAll (.bounded limit) pieces = (.error (.io none .full), ⟨some limit, written⟩)) := by
  have hcut : ¬ (String.join pieces).utf8ByteSize ≤ limit → ∃ written rest,
      String.join pieces = written ++ rest ∧
        writeAll (.bounded limit) pieces = (.error (.io none .full), ⟨some limit, written⟩) := by
    intro hlt
    have hrun := writeAll_of_lt limit "" pieces (Nat.zero_le limit)
    simp only [String.empty_append] at hrun
    exact hrun (Nat.lt_of_not_le hlt)
  refine ⟨⟨fun hok => ?_, fun hle => ?_⟩, hcut⟩
  · by_contra hlt
    obtain ⟨written, rest, -, hrun⟩ := hcut hlt
    rw [hrun] at hok
    cases congrArg Prod.fst hok
  · have hrun := writeAll_of_le limit "" pieces
    simp only [String.empty_append] at hrun
    exact hrun hle

end Sink

/-- A way to cut the text of every result into pieces, which are written one after the other. -/
structure Cutting (format : OutputFormat) where
  pieces : Result → List String
  join_pieces : ∀ r, String.join (pieces r) = r.text format

/-- The text of a result cut into its lines. -/
def Cutting.lines (format : OutputFormat) : Cutting format where
  pieces r := (r.lines format).map (· ++ "\n")
  join_pieces _ := rfl

/-! ## Commands -/

namespace Command

variable {format : OutputFormat}

/-- Carries out a command that writes its result in pieces. -/
def runCut (random : NameSupply) (c : Command) (cut : Cutting format) (sink : Sink) :
    Except Error Unit × Sink :=
  match c.evaluate random with
  | .error e => (.error e, sink)
  | .ok result => sink.writeAll (cut.pieces result)

theorem run_eq_runCut (random : NameSupply) (c : Command) (format : OutputFormat) (sink : Sink) :
    c.run random format sink = c.runCut random (Cutting.lines format) sink := by
  rw [run, runCut]
  cases c.evaluate random with
  | error e => rfl
  | ok result => exact sink.writeLines_eq_writeAll _

/-- However its result is cut into pieces, of which the lines are one way: a command that fails where
there is room for everything fails with the same error under a bound, and nothing is written. A command
that succeeds there with some text writes all of it if and only if the bytes are within the bound;
otherwise it fails with the error of the sink, which holds a part of the text from the front. -/
theorem run_bounded (c : Command) (random : NameSupply) (format : OutputFormat) (limit : ℕ) :
    (∀ sink, c.run random format sink = c.runCut random (Cutting.lines format) sink) ∧
    ∀ cut : Cutting format,
      (∃ e, c.runCut random cut .unbounded = (.error e, .unbounded) ∧
        c.runCut random cut (.bounded limit) = (.error e, .bounded limit)) ∨
      ∃ text, c.runCut random cut .unbounded = (.ok (), ⟨none, text⟩) ∧
        (c.runCut random cut (.bounded limit) = (.ok (), ⟨some limit, text⟩) ↔
          text.utf8ByteSize ≤ limit) ∧
        (¬ text.utf8ByteSize ≤ limit → ∃ written rest, text = written ++ rest ∧
          c.runCut random cut (.bounded limit) =
            (.error (.io none .full), ⟨some limit, written⟩)) := by
  refine ⟨fun sink => c.run_eq_runCut random format sink, fun cut => ?_⟩
  cases hresult : c.evaluate random with
  | error e =>
    simp only [runCut, hresult]
    exact .inl ⟨e, rfl, rfl⟩
  | ok result =>
    simp only [runCut, hresult]
    refine .inr ⟨result.text format, ?_, cut.join_pieces result ▸ Sink.writeAll_bounded limit _⟩
    rw [Sink.unbounded, Sink.writeAll_unbounded, cut.join_pieces, String.empty_append]

/-- Two lines of ten bytes together fit a bound of ten, and are cut off by a bound of nine. -/
theorem run_bounded_ten :
    let c := Command.parse "a==1;b<2"
    let random := NameSupply.sequential "n"
    c.run random .plain .unbounded = (.ok (), ⟨none, "a==1;\nb<2\n"⟩) ∧
      c.run random .plain (.bounded 10) = (.ok (), ⟨some 10, "a==1;\nb<2\n"⟩) ∧
      ∃ written rest, "a==1;\nb<2\n" = written ++ rest ∧
        c.run random .plain (.bounded 9) = (.error (.io none .full), ⟨some 9, written⟩) := by
  intro c random
  have hunbounded : c.run random .plain .unbounded = (.ok (), ⟨none, "a==1;\nb<2\n"⟩) := by
    decide +kernel
  have hends := fun limit => (run_bounded c random .plain limit).2 (Cutting.lines .plain)
  simp only [← run_eq_runCut, hunbounded] at hends
  have hfits : ∀ limit, (c.run random .plain (.bounded limit) =
      (.ok (), ⟨some limit, "a==1;\nb<2\n"⟩) ↔ 10 ≤ limit) ∧ (¬ 10 ≤ limit → ∃ written rest,
        "a==1;\nb<2\n" = written ++ rest ∧
          c.run random .plain (.bounded limit) = (.error (.io none .full), ⟨some limit, written⟩)) := by
    intro limit
    rcases hends limit with ⟨e, he, -⟩ | ⟨text, htext, hfit⟩
    · cases congrArg Prod.fst he
    · obtain rfl : "a==1;\nb<2\n" = text := congrArg (Sink.held ∘ Prod.snd) htext
      exact hfit
  exact ⟨hunbounded, (hfits 10).1.2 (by decide), (hfits 9).2 (by decide)⟩

end Command

end FilterClause
