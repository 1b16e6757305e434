import SproutLang.Proofs.Numbers
import SproutLang.Proofs.RoundTrip
import SproutLang.Proofs.Transcript

/-!
The command line against a session. The program reads a text as a new session does, evaluates its
expressions in the same row and shows names with the same table; it differs in what it does with
the outcome. A session answers with all values or with what went wrong; the program has printed the
values of the expressions before the one that went wrong, and ends with a message and a status.
There is one kind of text on which it ends without a status: one in which reading comes to a number
of more digits than can be converted.
-/

namespace SproutLang

/-- Is the text itself at fault, and not a limit of what can be read? -/
def ReadFault.IsSyntax : ReadFault → Prop
  | .unexpected _ _ _ | .outOfRange _ _ => True
  | .tooManyDigits _ | .tooDeep => False

/-! ### Printing what was read -/

theorem Expr.eq_tooDeep_of_printFault? {e : Expr} (h : e.firstStray? = none) {depth : Nat}
    {fault : PrintFault} (hfault : e.printFault? depth = some fault) : fault = .tooDeep := by
  rw [printFault?, h] at hfault
  split at hfault
  · exact (Option.some.inj hfault).symm
  · contradiction

theorem Expr.Derived.firstStray?_eq_none {e : Expr} (h : e.Derived) : e.firstStray? = none := by
  obtain ⟨t, -, rfl⟩ := h
  exact t.firstStray?_expr

/-- A function is a literal of some text, and no other admissible value has parts. -/
theorem Value.Admissible.firstStray?_eq_none {room : Nat} {texts : List (List Char)} {v : Value}
    (h : v.Admissible room texts) : (Expr.literal v).firstStray? = none := by
  cases v with
  | function params body =>
      obtain ⟨text, -, exprs, hread, hmem⟩ := h
      exact (Source.derived_of_mem_partsOf hread hmem).firstStray?_eq_none
  | _ => rfl

namespace Command

variable {p : Plan} {text : List Char} {program : List Expr}

/-! ### What is printed -/

theorem unlines_append (lines more : List String) :
    unlines (lines ++ more) = unlines lines ++ unlines more := by
  simp only [unlines, List.map_append, String.join_append]

theorem unlines_singleton (line : String) : unlines [line] = line ++ "\n" := by
  simp only [unlines, List.map_cons, List.map_nil, String.join_cons, String.join_nil,
    String.append_empty]

theorem unlines_map {α : Type} (f : α → String) (l : List α) :
    unlines (l.map f) = String.join (l.map fun a => f a ++ "\n") := by
  rw [unlines, List.map_map]
  rfl

/-- What stands in front of the results: the program, if it is to be shown, and an empty line. -/
def Plan.heading (p : Plan) (spell : Key → String) (program : List Expr) : String :=
  if p.options.ast then String.join (program.map fun e => e.render spell ++ "\n") ++ "\n" else ""

def complaint (spell : Key → String) : Outcome Unit → String
  | .value _ => ""
  | .failed f => "runtime error: " ++ f.message spell ++ "\n"
  | .exhausted => "runtime error: stack exhausted (maximum recursion depth exceeded)\n"

theorem unlines_stackExhausted :
    unlines [stackExhausted] =
      "runtime error: stack exhausted (maximum recursion depth exceeded)\n" := by
  decide

theorem Plan.unlines_heading (p : Plan) (spell : Key → String) (program : List Expr) :
    unlines (if p.options.ast then program.map (Expr.render spell) ++ [""] else []) =
      p.heading spell program := by
  rw [heading]
  split
  · rw [unlines_append, unlines_map, unlines_singleton, String.empty_append]
  · rfl

def statusOf : Outcome Unit → Nat
  | .value _ => 0
  | _ => 1

theorem evaluateText_of_fault {fault : ReadFault}
    (h : (Source.all p.limits.room text).outcome = .error fault) :
    evaluateText p text = reportFault fault := by
  simp only [evaluateText, h]

theorem reportFault_of_isSyntax {fault : ReadFault} (h : fault.IsSyntax) :
    reportFault fault = ⟨"", "syntax error: " ++ fault.message ++ "\n", .exit 1⟩ := by
  cases fault with
  | tooManyDigits count => exact h.elim
  | tooDeep => exact h.elim
  | _ => exact congrArg (Report.mk "" · (.exit 1)) (unlines_singleton _)

/-- What is printed of a text that can be read, and what a session answers to it. -/
theorem evaluateText_of_exprs (h : (Source.all p.limits.room text).outcome = .ok program) :
    let answer := p.session.eval Host.bare p.limits text
    let spell := answer.session.spellings.spell
    let row := evaluateAll Host.bare p.limits.depth program p.session.scope ()
    evaluateText p text =
      ⟨p.heading spell program ++ String.join (row.values.map fun v => v.render spell ++ "\n"),
        unlines (logLines p.level answer.log) ++ complaint spell row.ending,
        .exit (statusOf row.ending)⟩ ∧
    answer.outcome = (Session.outcomeOf row.ending).map fun _ => Session.summary row.values := by
  simp only [evaluateText, h, Session.eval, Session.run_of_exprs _ h, Session.stepOf,
    unlines_append _ (List.map _ _), unlines_map, Plan.unlines_heading]
  cases (evaluateAll Host.bare p.limits.depth program p.session.scope ()).ending with
  | value => exact ⟨by simp only [complaint, String.append_empty, statusOf], rfl⟩
  | failed f => exact ⟨by simp only [complaint, unlines_append, unlines_singleton, statusOf], rfl⟩
  | exhausted =>
      exact ⟨by simp only [complaint, unlines_append, unlines_stackExhausted, statusOf], rfl⟩

/-- A row of expressions that was read fails only in the ways of the language. -/
theorem isOrdinary_of_row (h : (Source.all p.limits.room text).outcome = .ok program) {f : Failure}
    (hf : (evaluateAll Host.bare p.limits.depth program p.session.scope ()).ending = .failed f) :
    f.IsOrdinary := by
  have hadmissible : p.session.scope.Admissible p.limits.room [] :=
    Session.admissible_begin _ _ _
  have hrun : (p.session.run Host.bare p.limits text).outcome = .error (.running f) := by
    rw [Session.run_of_exprs _ h, Session.stepOf]
    show (Session.outcomeOf (evaluateAll _ _ _ p.session.scope ()).ending).map _ = _
    rw [hf]
    rfl
  exact Session.isOrdinary_of_run Host.bare hadmissible hrun

/-! ### The program and the session -/

theorem execute_of_canStart (hstart : p.CanStart) {bytes : List UInt8}
    (hdecode : Text.Utf8.decode bytes = .ok text) :
    execute p (.ok bytes) = evaluateText p (Text.unifyNewlines text) := by
  simp only [execute, hdecode, if_pos hstart]

theorem execute_of_not_canStart (hstart : ¬ p.CanStart) {bytes : List UInt8}
    (hdecode : Text.Utf8.decode bytes = .ok text) :
    execute p (.ok bytes) = ⟨"", "", .limitTooLow⟩ := by
  simp only [execute, hdecode, if_neg hstart]

theorem exit_zero_iff :
    (evaluateText p text).ending = .exit 0 ↔
      ∃ v, (p.session.eval Host.bare p.limits text).outcome = .ok v := by
  cases hread : (Source.all p.limits.room text).outcome with
  | error fault =>
      rw [evaluateText_of_fault hread, Session.eval, Session.run_of_fault _ hread]
      cases fault <;> simp [reportFault, Except.map]
  | ok program =>
      obtain ⟨hreport, hanswer⟩ := evaluateText_of_exprs hread
      rw [hreport, hanswer]
      cases (evaluateAll Host.bare p.limits.depth program p.session.scope ()).ending <;>
        simp [statusOf, Session.outcomeOf, Except.map]

/-- The program and a new session with the same natives, limits and spellings agree on every text.
The status is zero exactly if the session evaluates the text, and then the results are the values
that the session has. A fault in the text is reported alone, and nothing is printed. Where an
expression fails or goes too deep, so does the session; the results are the values of the
expressions before it, and the message is the session's. The program itself, if it is to be shown,
comes before the results. -/
theorem execute_agrees_with_eval (p : Plan) (hstart : p.CanStart) {bytes : List UInt8}
    {text : List Char} (hdecode : Text.Utf8.decode bytes = .ok text) :
    let source := Text.unifyNewlines text
    let s : Session Unit := .begin p.spellings () (!p.options.noNatives)
    let read := (Source.all p.limits.room source).outcome
    let answer := s.eval Host.bare p.limits source
    let spell := answer.session.spellings.spell
    let log := String.join ((logLines p.level answer.log).map fun line => line ++ "\n")
    let results (vs : List Value) := String.join (vs.map fun v => v.render spell ++ "\n")
    let report := execute p (.ok bytes)
    (report.ending = .exit 0 ↔ ∃ v, answer.outcome = .ok v) ∧
    (∀ fault, read = .error fault → answer.outcome = .error (.reading fault) ∧
      (fault.IsSyntax → report = ⟨"", "syntax error: " ++ fault.message ++ "\n", .exit 1⟩) ∧
      (fault = .tooDeep → report =
        ⟨"", "runtime error: stack exhausted (maximum recursion depth exceeded)\n", .exit 1⟩)) ∧
    (∀ program, read = .ok program →
      let shown :=
        if p.options.ast then String.join (program.map fun e => e.render spell ++ "\n") ++ "\n"
        else ""
      (∀ v, answer.outcome = .ok v → ∃ vs, v = Session.summary vs ∧
        (s.run Host.bare p.limits source).outcome = .ok vs ∧ vs.length = program.length ∧
        report = ⟨shown ++ results vs, log, .exit 0⟩) ∧
      (∀ before e after, program = before ++ e :: after →
        let earlier := evaluateAll Host.bare p.limits.depth before s.scope ()
        let outcome := (evaluate Host.bare p.limits.depth e earlier.scope earlier.world).outcome
        earlier.ending = .value () → earlier.values.length = before.length ∧
          (∀ f, outcome = .failed f → f.IsOrdinary ∧ answer.outcome = .error (.running f) ∧
            report = ⟨shown ++ results earlier.values,
              log ++ ("runtime error: " ++ f.message spell ++ "\n"), .exit 1⟩) ∧
          (outcome = .exhausted → answer.outcome = .error .exhausted ∧
            report = ⟨shown ++ results earlier.values,
              log ++ "runtime error: stack exhausted (maximum recursion depth exceeded)\n",
              .exit 1⟩)) ∧
      (∀ trouble, answer.outcome = .error trouble →
        ∃ before e after, program = before ++ e :: after ∧
          let earlier := evaluateAll Host.bare p.limits.depth before s.scope ()
          earlier.ending = .value () ∧ ∀ v,
            (evaluate Host.bare p.limits.depth e earlier.scope earlier.world).outcome ≠
              .value v)) := by
  intro source s read answer spell log results report
  have hreport : report = evaluateText p source := execute_of_canStart hstart hdecode
  refine ⟨?_, ?_, ?_⟩
  · rw [hreport, exit_zero_iff]
    rfl
  · intro fault hread
    refine ⟨?_, fun hsyntax => ?_, ?_⟩
    · exact congrArg (fun r => r.outcome.map Session.summary) (Session.run_of_fault s hread)
    · rw [hreport, evaluateText_of_fault hread, reportFault_of_isSyntax hsyntax]
    · rintro rfl
      rw [hreport, evaluateText_of_fault hread, reportFault, unlines_stackExhausted]
  · intro program hread shown
    let row := evaluateAll Host.bare p.limits.depth program s.scope ()
    have hprinted : report =
        ⟨shown ++ results row.values, log ++ complaint spell row.ending,
          .exit (statusOf row.ending)⟩ :=
      hreport.trans (evaluateText_of_exprs hread).1
    have hanswer : answer.outcome =
        (Session.outcomeOf row.ending).map fun _ => Session.summary row.values :=
      (evaluateText_of_exprs hread).2
    refine ⟨fun v hv => ?_, ?_, fun trouble htrouble => ?_⟩
    · obtain ⟨vs, hrun, rfl⟩ := Session.exists_ok_of_map hv
      obtain ⟨hending, hvalues⟩ := Session.row_of_ok (Session.run_of_exprs s hread ▸ hrun)
      have hends : row.ending = .value () := hending
      refine ⟨vs, rfl, hrun, hvalues ▸ length_values_of_value hending, ?_⟩
      rw [hprinted, hends, complaint, String.append_empty, hvalues]
      rfl
    · rintro before e after rfl earlier outcome hearlier
      obtain ⟨hfails, hexhausts⟩ := evaluateAll_stops hearlier e after
      refine ⟨length_values_of_value hearlier, fun f hf => ?_, fun hexhausted => ?_⟩
      · obtain ⟨hvalues, hending⟩ := hfails f hf
        refine ⟨isOrdinary_of_row hread hending, ?_, ?_⟩
        · rw [hanswer, hending]
          rfl
        · rw [hprinted, hending, hvalues]
          rfl
      · obtain ⟨hvalues, hending⟩ := hexhausts hexhausted
        refine ⟨?_, ?_⟩
        · rw [hanswer, hending]
          rfl
        · rw [hprinted, hending, hvalues]
          rfl
    · refine exists_stop fun hending => ?_
      rw [hanswer, hending] at htrouble
      contradiction

/-- Of two expressions the second fails: the first has its result, and the message follows. -/
theorem execute_agrees_with_eval_non_function :
    let p : Plan := { options := ⟨"-", false, true⟩, level := 30, limits := ⟨1, 20⟩ }
    let bytes : List UInt8 := [0x37, 0x20, 0x28, 0x31, 0x29]
    Text.Utf8.decode bytes = .ok ['7', ' ', '(', '1', ')'] ∧
    execute p (.ok bytes) =
      ⟨"7\n", "runtime error: Attempted to call a non-function: 1\n", .exit 1⟩ := by
  intro p bytes
  have hdecode : Text.Utf8.decode bytes = .ok ['7', ' ', '(', '1', ')'] := by decide +kernel
  have hread : (Source.all 1 ['7', ' ', '(', '1', ')']).outcome =
      .ok [.literal (.int 7), .call (.literal (.int 1)) []] := by
    rw [Source.all, show Lexeme.scan 0 ['7', ' ', '(', '1', ')'] =
      [⟨0, .digits ['7']⟩, ⟨2, .lparen⟩, ⟨3, .digits ['1']⟩, ⟨4, .rparen⟩] by decide +kernel]
    rfl
  have hlog : (p.session.eval Host.bare p.limits ['7', ' ', '(', '1', ')']).log = [] := by
    rw [Session.eval, Session.run_of_exprs p.session hread]
    rfl
  obtain ⟨-, -, hprogram⟩ := execute_agrees_with_eval p (by decide) hdecode
  obtain ⟨-, hstops, -⟩ := hprogram _ hread
  obtain ⟨-, hfails, -⟩ := hstops [.literal (.int 7)] (.call (.literal (.int 1)) []) [] rfl rfl
  obtain ⟨-, -, hreport⟩ := hfails (.notCallable (.int 1)) rfl
  have hstderr := congrArg (fun log => unlines (logLines 30 log) ++
    "runtime error: Attempted to call a non-function: 1\n") hlog
  exact ⟨hdecode, hreport.trans (congrArg (Report.mk "7\n" · (.exit 1)) hstderr)⟩

/-! ### How the program ends -/

/-- How the program can end on a text: for a number of too many digits, or with a status; and what
it prints beside the results. -/
theorem evaluateText_cases (p : Plan) (text : List Char) :
    let read := (Source.all p.limits.room text).outcome
    let log := unlines (logLines p.level (p.session.eval Host.bare p.limits text).log)
    let report := evaluateText p text
    (∃ count, read = .error (.tooManyDigits count) ∧ report = ⟨"", "", .tooManyDigits count⟩) ∨
    (∀ count, read ≠ .error (.tooManyDigits count)) ∧
      (report.ending = .exit 0 ∧ report.stderr = log ∨
        report.ending = .exit 1 ∧ ∃ message,
          report.stderr = "syntax error: " ++ message ++ "\n" ∨
          report.stderr = log ++ ("runtime error: " ++ message ++ "\n")) := by
  intro read log report
  obtain ⟨message, hdepth⟩ : ∃ message,
      "runtime error: stack exhausted (maximum recursion depth exceeded)\n" =
        "runtime error: " ++ message ++ "\n" :=
    ⟨"stack exhausted (maximum recursion depth exceeded)", by decide⟩
  cases hread : read with
  | error fault =>
      have hreport : report = reportFault fault := evaluateText_of_fault hread
      have hlog : log = "" := by
        simp only [log, Session.eval, Session.run_of_fault _ hread]
        rfl
      rw [hreport, hlog]
      cases fault with
      | tooManyDigits count => exact .inl ⟨count, rfl, rfl⟩
      | tooDeep =>
          refine .inr ⟨by simp, .inr ⟨rfl, message, .inr ?_⟩⟩
          rw [String.empty_append, ← hdepth]
          exact unlines_stackExhausted
      | unexpected _ _ _ | outOfRange _ _ =>
          exact .inr ⟨by simp, .inr ⟨rfl, _, .inl (unlines_singleton _)⟩⟩
  | ok program =>
      obtain ⟨hreport, -⟩ := evaluateText_of_exprs hread
      rw [show report = _ from hreport]
      refine .inr ⟨by simp, ?_⟩
      cases (evaluateAll Host.bare p.limits.depth program p.session.scope ()).ending with
      | value => exact .inl ⟨rfl, by simp only [complaint, String.append_empty, log]⟩
      | failed f => exact .inr ⟨rfl, _, .inr rfl⟩
      | exhausted => exact .inr ⟨rfl, message, .inr (congrArg (log ++ ·) hdepth)⟩

/-- For every text, the program returns the status 0 or 1, unless the bound on nested calls is too
low to begin a session, or reading comes to a number of more digits than can be converted; then it
ends for that, and prints nothing. With the status 1 comes one line on what is wrong. A text is
refused only for its syntax, for its depth or for such a number; evaluating what was read fails only
in the ways of the language or for its depth; and printing it, or a result, only for its depth. -/
theorem execute_returns_unless_long_number (p : Plan) {bytes : List UInt8} {text : List Char}
    (hdecode : Text.Utf8.decode bytes = .ok text) :
    let source := Text.unifyNewlines text
    let read := (Source.all p.limits.room source).outcome
    let log := String.join
      ((logLines p.level (p.session.eval Host.bare p.limits source).log).map (· ++ "\n"))
    let report := execute p (.ok bytes)
    let LongNumber (count : Nat) := ∃ before run after, source = before ++ run ++ after ∧
      Source.Reaches p.limits.room before run after ∧ run.length = count ∧
      Reading.maxDigits < run.length
    ((report.ending = .exit 0 ∨ report.ending = .exit 1) ↔
      p.CanStart ∧ ∀ count, ¬ LongNumber count) ∧
    (¬ p.CanStart → report = ⟨"", "", .limitTooLow⟩) ∧
    (p.CanStart → ∀ count, LongNumber count → report = ⟨"", "", .tooManyDigits count⟩) ∧
    (report.ending = .exit 0 → report.stderr = log) ∧
    (report.ending = .exit 1 → ∃ message,
      report.stderr = "syntax error: " ++ message ++ "\n" ∨
      report.stderr = log ++ ("runtime error: " ++ message ++ "\n")) ∧
    (∀ fault, read = .error fault → fault.IsSyntax ∨ fault = .tooDeep ∨
      ∃ count, fault = .tooManyDigits count ∧ LongNumber count) ∧
    (∀ program, read = .ok program →
      let row := evaluateAll Host.bare p.limits.depth program p.session.scope ()
      (∀ f, row.ending = .failed f → f.IsOrdinary) ∧
      (∀ depth fault,
        (∀ e ∈ program, e.printFault? depth = some fault → fault = .tooDeep) ∧
        (∀ v ∈ row.values, v.printFault? depth = some fault → fault = .tooDeep))) := by
  intro source read log report LongNumber
  have hlong (count : Nat) : LongNumber count ↔ read = .error (.tooManyDigits count) :=
    Source.outcome_eq_tooManyDigits_iff.symm
  have hreport (hstart : p.CanStart) : report = evaluateText p source :=
    execute_of_canStart hstart hdecode
  have hlow (hstart : ¬ p.CanStart) : report = ⟨"", "", .limitTooLow⟩ :=
    execute_of_not_canStart hstart hdecode
  have hstarted {status : Nat} (hexit : report.ending = .exit status) : p.CanStart := by
    by_contra hstart
    rw [hlow hstart] at hexit
    contradiction
  have hadmissible : p.session.scope.Admissible p.limits.room [] :=
    Session.admissible_begin _ _ _
  have hcases := evaluateText_cases p source
  simp only [hlong]
  refine ⟨⟨fun hexit => ?_, fun ⟨hstart, hnone⟩ => ?_⟩, hlow, fun hstart count hread => ?_,
    fun hexit => ?_, fun hexit => ?_, fun fault hread => ?_,
    fun program hread => ⟨?_, fun depth fault => ?_⟩⟩
  · have hstart : p.CanStart := hexit.elim (hstarted ·) (hstarted ·)
    rw [hreport hstart] at hexit
    obtain ⟨count, -, hends⟩ | ⟨hread, -⟩ := hcases
    · simp [hends] at hexit
    · exact ⟨hstart, hread⟩
  · rw [hreport hstart]
    obtain ⟨count, hread, -⟩ | ⟨-, hends⟩ := hcases
    · exact absurd hread (hnone count)
    · exact hends.imp And.left And.left
  · rw [hreport hstart, evaluateText_of_fault hread]
    rfl
  · have hstart := hstarted hexit
    rw [hreport hstart] at hexit ⊢
    obtain ⟨count, -, hends⟩ | ⟨-, ⟨-, hstderr⟩ | ⟨hone, -⟩⟩ := hcases
    · simp [hends] at hexit
    · exact hstderr
    · simp [hone] at hexit
  · have hstart := hstarted hexit
    rw [hreport hstart] at hexit ⊢
    obtain ⟨count, -, hends⟩ | ⟨-, ⟨hzero, -⟩ | ⟨-, hstderr⟩⟩ := hcases
    · simp [hends] at hexit
    · simp [hzero] at hexit
    · exact hstderr
  · cases fault with
    | tooManyDigits count => exact .inr (.inr ⟨count, rfl, hread⟩)
    | tooDeep => exact .inr (.inl rfl)
    | unexpected _ _ _ | outOfRange _ _ => exact .inl trivial
  · exact fun f hf => isOrdinary_of_row hread hf
  · refine ⟨fun e he => ?_, fun v hv => ?_⟩
    · have hpart := Expr.mem_partsOf_iff.mpr ⟨e, he, e.self_mem_parts⟩
      have hderived := Source.derived_of_mem_partsOf hread hpart
      exact Expr.eq_tooDeep_of_printFault? hderived.firstStray?_eq_none
    · have hvalue := Session.admissible_values Host.bare hadmissible hread v hv
      exact Expr.eq_tooDeep_of_printFault? hvalue.firstStray?_eq_none

/-- A text of two characters has no long number. -/
theorem execute_returns_on_stray_paren :
    let p : Plan := { options := ⟨"-", false, false⟩, level := 30, limits := .standard }
    Text.Utf8.decode [0x37, 0x29] = .ok ['7', ')'] ∧
    ((execute p (.ok [0x37, 0x29])).ending = .exit 0 ∨
      (execute p (.ok [0x37, 0x29])).ending = .exit 1) := by
  intro p
  have hdecode : Text.Utf8.decode [0x37, 0x29] = .ok ['7', ')'] := by decide +kernel
  refine ⟨hdecode, (execute_returns_unless_long_number p hdecode).1.mpr ⟨by decide, ?_⟩⟩
  rintro count ⟨before, run, after, hsource, -, -, hmany⟩
  have hlength : 2 = (before ++ run ++ after).length := congrArg List.length hsource
  rw [Reading.maxDigits] at hmany
  simp only [List.length_append] at hlength
  omega

/-! ### A number alone -/

def asciiBytes (text : List Char) : List UInt8 :=
  text.map fun c => UInt8.ofNat c.toNat

theorem decodeFrom_asciiBytes {text : List Char} (h : ∀ c ∈ text, c.toNat < 0x80) (pos : Nat) :
    Text.Utf8.decodeFrom pos none (asciiBytes text) = .ok text := by
  induction text generalizing pos with
  | nil => rfl
  | cons c text ih =>
      rw [List.forall_mem_cons] at h
      have hlead : Text.Utf8.lead (UInt8.ofNat c.toNat) = some (c.toNat, []) := by
        have hbyte : (UInt8.ofNat c.toNat).toNat = c.toNat :=
          UInt8.toNat_ofNat_of_lt' (Nat.lt_trans h.1 (by decide))
        rw [Text.Utf8.lead, hbyte, if_pos h.1]
      rw [asciiBytes, List.map_cons, Text.Utf8.decodeFrom, hlead]
      show (Text.Utf8.decodeFrom (pos + 1) none (asciiBytes text)).map _ = _
      rw [ih h.2, Char.ofNat_toNat]
      rfl

theorem unifyNewlines_of_not_mem {text : List Char} (h : '\r' ∉ text) :
    Text.unifyNewlines text = text := by
  fun_induction Text.unifyNewlines text with
  | case1 => rfl
  | case2 rest _ => simp at h
  | case3 rest _ _ => simp at h
  | case4 c rest _ _ ih => rw [ih (fun hmem => h (List.mem_cons_of_mem _ hmem))]

theorem decode_digits {run : List Char} (h : (Token.digits run).WellFormed) :
    Text.Utf8.decode (asciiBytes run) = .ok run := by
  refine decodeFrom_asciiBytes (fun c hc => ?_) 0
  have hdigit := h.2 c hc
  simp only [Text.isAsciiDigit, Bool.and_eq_true, decide_eq_true_eq] at hdigit
  omega

/-- A text that is nothing but one number of too many digits is not evaluated. -/
theorem execute_digits {p : Plan} (hstart : p.CanStart) {run : List Char}
    (h : (Token.digits run).WellFormed) (hmany : Reading.maxDigits < run.length) :
    execute p (.ok (asciiBytes run)) = ⟨"", "", .tooManyDigits run.length⟩ := by
  have hunify : Text.unifyNewlines run = run := by
    refine unifyNewlines_of_not_mem fun hmem => ?_
    exact absurd (h.2 _ hmem) (by decide)
  have hread : (Source.all p.limits.room run).outcome = .error (.tooManyDigits run.length) :=
    Source.outcome_eq_tooManyDigits_iff.mpr
      ⟨[], run, [], by simp, Source.reaches_alone h, rfl, hmany⟩
  rw [execute_of_canStart hstart (decode_digits h), hunify]
  exact evaluateText_of_fault hread

/-- A text of 4301 ones makes the program end without a status. -/
theorem execute_many_ones_no_status :
    ∃ p, plan ["-"] (fun _ => none) = .ok p ∧
      Text.Utf8.decode (List.replicate 4301 0x31) = .ok (List.replicate 4301 '1') ∧
      execute p (.ok (List.replicate 4301 0x31)) = ⟨"", "", .tooManyDigits 4301⟩ := by
  have hones : asciiBytes (List.replicate 4301 '1') = List.replicate 4301 0x31 :=
    List.map_replicate
  have hdigits : (Token.digits (List.replicate 4301 '1')).WellFormed := by
    refine ⟨List.cons_ne_nil _ _, fun c hc => ?_⟩
    rw [List.eq_of_mem_replicate hc]
    decide
  refine ⟨_, rfl, ?_, ?_⟩
  · rw [← hones, decode_digits hdigits]
  · rw [← hones, execute_digits (by decide) hdigits, List.length_replicate]
    rw [Reading.maxDigits, List.length_replicate]
    decide

end Command

end SproutLang
