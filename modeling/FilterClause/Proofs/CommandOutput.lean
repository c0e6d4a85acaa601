import FilterClause.Command.Output

/-!
# Output of a command

A text is written in pieces, of which its lines are one choice. A sink without a bound takes them all
(`Sink.writeAll_unbounded`), so a command prints there the text of what it evaluates to, or fails with
the error it evaluates to (`Command.run_unbounded`).

A request to compile goes through four steps, which either all succeed or stop at the first that
fails: it reads the filters, chooses the loop, compiles the clause and puts the loop around it
(`CompileRequest.compile_eq_ok_iff`).
-/

namespace FilterClause

/-! ## Pieces of a text -/

namespace Sink

/-- Writes pieces one after the other, up to the first for which there is no room. -/
def writeAll (s : Sink) : List String → Except Error Unit × Sink
  | [] => (.ok (), s)
  | piece :: rest =>
    match s.write piece with
    | (.ok _, s) => s.writeAll rest
    | (.error e, s) => (.error e, s)

/-- Lines are pieces, each with its line feed. -/
theorem writeLines_eq_writeAll (s : Sink) (lines : List String) :
    s.writeLines lines = s.writeAll (lines.map (· ++ "\n")) := by
  induction lines generalizing s with
  | nil => rfl
  | cons line lines ih =>
    rw [writeLines, List.map_cons, writeAll]
    rcases s.write (line ++ "\n") with ⟨_ | _, later⟩
    · rfl
    · exact ih later

/-- An unbounded sink takes all pieces. -/
theorem writeAll_unbounded (held : String) (pieces : List String) :
    writeAll ⟨none, held⟩ pieces = (.ok (), ⟨none, held ++ String.join pieces⟩) := by
  induction pieces generalizing held with
  | nil => simp [writeAll]
  | cons piece pieces ih =>
    have hwrite : write ⟨none, held⟩ piece = (.ok (), ⟨none, held ++ piece⟩) := rfl
    rw [writeAll, hwrite]
    simp only [ih, String.join_cons, String.append_assoc]

/-- An unbounded sink takes all lines. -/
theorem writeLines_unbounded (held : String) (lines : List String) :
    writeLines ⟨none, held⟩ lines =
      (.ok (), ⟨none, held ++ String.join (lines.map (· ++ "\n"))⟩) := by
  rw [writeLines_eq_writeAll, writeAll_unbounded]

end Sink

/-! ## Commands -/

namespace Command

/-- Where there is room for everything, a command prints its result or fails with its own error. -/
theorem run_unbounded (c : Command) (random : NameSupply) (format : OutputFormat) :
    c.run random format .unbounded =
      match c.evaluate random with
      | .ok result => (.ok (), ⟨none, result.text format⟩)
      | .error e => (.error e, .unbounded) := by
  rw [run]
  split
  · next e he => rw [he]
  · next result hresult =>
    rw [hresult, Sink.unbounded, Sink.writeLines_unbounded, String.empty_append]
    rfl

/-- A command that cannot be evaluated writes nothing, wherever it is run. -/
theorem run_of_evaluate_error {c : Command} {random : NameSupply} {e : Error}
    (h : c.evaluate random = .error e) (format : OutputFormat) (sink : Sink) :
    c.run random format sink = (.error e, sink) := by
  rw [run, h]

/-- A request that succeeds has printed what it was compiled to. -/
theorem exists_compile_of_run {r : CompileRequest} {random : NameSupply} {format : OutputFormat}
    {sink : Sink} (h : (Command.compile r).run random format .unbounded = (.ok (), sink)) :
    ∃ text, r.compile random = .ok text ∧ sink = ⟨none, (Result.clause r.filter text).text format⟩ := by
  rw [run_unbounded, evaluate] at h
  cases hcompile : r.compile random with
  | error e =>
    rw [hcompile, Except.map, Prod.mk.injEq] at h
    cases h.1
  | ok text =>
    rw [hcompile, Except.map, Prod.mk.injEq] at h
    exact ⟨text, rfl, h.2.symm⟩

/-- A request prints what it is compiled to. -/
theorem run_compile_of_ok {r : CompileRequest} {random : NameSupply} {text : String}
    (h : r.compile random = .ok text) (format : OutputFormat) :
    (Command.compile r).run random format .unbounded =
      (.ok (), ⟨none, (Result.clause r.filter text).text format⟩) := by
  rw [run_unbounded, evaluate, h, Except.map]

end Command

/-- For people and in plain mode, a clause is printed as it is, with a line feed after it. -/
theorem Result.text_clause {format : OutputFormat} (h : format ≠ .json) (filter text : String) :
    (Result.clause filter text).text format = text ++ "\n" := by
  cases format with
  | human | plain => simp [Result.text, Result.lines, String.join]
  | json => exact absurd rfl h

namespace CompileRequest

/-- A request is compiled by reading its filters, choosing the loop, compiling the clause and putting
the loop around it. -/
theorem compile_eq_ok_iff {r : CompileRequest} {random : NameSupply} {text : String} :
    r.compile random = .ok text ↔ ∃ fs loop clause, Filter.parse r.filter = .ok fs ∧
      r.loop? fs = .ok loop ∧
      ((Compiler.new r.fields r.anchor (r.supply random)).compile fs).1 = .ok clause ∧
      wrap loop clause.text = text := by
  rw [compile]
  cases hparse : Filter.parse r.filter with
  | error e => simp
  | ok fs =>
    simp only [compileFilters, Except.ok.injEq, exists_and_left, exists_eq_left']
    cases hloop : r.loop? fs with
    | error e => simp
    | ok loop =>
      simp only [statement, Except.ok.injEq, exists_eq_left']
      cases ((Compiler.new r.fields r.anchor (r.supply random)).compile fs).1 with
      | error e => simp [Except.map]
      | ok clause => simp [Except.map]

end CompileRequest

end FilterClause
