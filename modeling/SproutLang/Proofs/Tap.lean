import SproutLang.Proofs.Source

/-!
A text that is drained through a tap. Expressions are read at the cursor, asked for one by one, or
handed out by a stream, in any order, and streams are started anew at any time. All of these move
one and the same cursor, so what has been handed out and what the cursor still has before it are,
put together, the expressions of the text: none is lost and none comes twice. A fault leaves the
cursor where it was, up to blanks, and is met again by whoever asks next.

One request preserves this, whatever it is, and so do requests in any number. That a stream has
ended is kept by the tap alone: no request but for a new stream undoes it.
-/

namespace SproutLang

section

variable [Text.Alphabet] {room : Nat} {source : List Char} {e : Expr} {es : List Expr}
  {halt : Option Reading.Halt}

namespace Cursor

variable {c : Cursor}

/-- The cursor is in the text `source` and has the expressions `es` before it; what ends the reading
behind them is `halt`, if not the end of the text. -/
structure Ahead (room : Nat) (source : List Char) (es : List Expr) (halt : Option Reading.Halt)
    (c : Cursor) : Prop where
  source_eq : c.source = source
  pos_le : c.pos ≤ c.source.length
  exprs_eq : (c.harvest room).exprs = es
  halt_eq : (c.harvest room).halt = halt

theorem ahead_start (room : Nat) (source : List Char) :
    Ahead room source (harvest room ⟨source, 0⟩).exprs (harvest room ⟨source, 0⟩).halt
      ⟨source, 0⟩ :=
  ⟨rfl, Nat.zero_le _, rfl, rfl⟩

namespace Ahead

theorem skipBlanks (h : Ahead room source es halt c) :
    Ahead room source es halt c.skipBlanks := by
  have hharvest : c.skipBlanks.harvest room = c.harvest room := by
    rw [harvest, harvest, lexemes_skipBlanks h.pos_le]
  refine ⟨h.source_eq, pos_skipBlanks_le h.pos_le, ?_, ?_⟩
  · rw [hharvest, h.exprs_eq]
  · rw [hharvest, h.halt_eq]

/-- With an expression before the cursor, to read and to ask for the next are the same. -/
theorem read_cons (h : Ahead room source (e :: es) halt c) :
    ∃ names c', c.read room = (⟨names, .ok e⟩, c') ∧ c.next room = (⟨names, .ok (some e)⟩, c') ∧
      Ahead room source es halt c' := by
  have hexprs := h.exprs_eq
  have hhalt := h.halt_eq
  cases prospect room h.pos_le with
  | takes names e' rest ht =>
      rw [ht.harvest_eq] at hexprs hhalt
      obtain ⟨rfl, hes⟩ := List.cons.inj hexprs
      exact ⟨names, c.moveTo rest, ht.read_eq, ht.next_eq h.pos_le,
        h.source_eq, ht.pos_le, hes, hhalt⟩
  | balks names halt' hb =>
      rw [hb.harvest_eq] at hexprs
      contradiction
  | finished hnil =>
      rw [harvest_of_nil hnil] at hexprs
      contradiction

theorem read_of_halt {halt : Reading.Halt} (h : Ahead room source [] (some halt) c) :
    ∃ names, c.read room = (⟨names, .error (halt.fault source 0)⟩, c) ∧
      c.next room = (⟨names, .error (halt.fault source 0)⟩, c.skipBlanks) := by
  have hexprs := h.exprs_eq
  have hhalt := h.halt_eq
  obtain rfl := h.source_eq
  cases prospect room h.pos_le with
  | takes names e rest ht =>
      rw [ht.harvest_eq] at hexprs
      contradiction
  | balks names halt' hb =>
      rw [hb.harvest_eq] at hhalt
      obtain rfl : halt' = halt := Option.some.inj hhalt
      exact ⟨names, hb.read_eq h.pos_le, hb.next_eq h.pos_le⟩
  | finished hnil =>
      rw [harvest_of_nil hnil] at hhalt
      contradiction

theorem read_of_end (h : Ahead room source [] none c) :
    (∃ fault, c.read room = (⟨[], .error fault⟩, c)) ∧
      c.next room = (⟨[], .ok none⟩, c.skipBlanks) := by
  have hexprs := h.exprs_eq
  have hhalt := h.halt_eq
  cases prospect room h.pos_le with
  | takes names e rest ht =>
      rw [ht.harvest_eq] at hexprs
      contradiction
  | balks names halt' hb =>
      rw [hb.harvest_eq] at hhalt
      contradiction
  | finished hnil =>
      exact ⟨⟨_, read_of_nil hnil h.pos_le⟩, next_of_nil hnil h.pos_le⟩

end Ahead

/-- Reading as a step: the expression and the cursor behind it, or a fault. -/
def readOne (room : Nat) (c : Cursor) : Except ReadFault (Expr × Cursor) :=
  (c.read room).1.outcome.map fun e => (e, (c.read room).2)

/-- Read again and again, a cursor gives the expressions that it has before it. -/
theorem repeats_readOne (room : Nat) (h : c.pos ≤ c.source.length) :
    ∃ last fault, Repeats (readOne room) c (c.harvest room).exprs last fault := by
  induction c, h using prospect_induction room with
  | takes c names e rest h ht ih =>
      obtain ⟨last, fault, hmore⟩ := ih
      refine ⟨last, fault, ?_⟩
      rw [ht.harvest_eq]
      refine .more ?_ hmore
      rw [readOne, ht.read_eq]
      rfl
  | balks c names halt h hb =>
      refine ⟨c, halt.fault c.source 0, ?_⟩
      rw [hb.harvest_eq]
      refine .stop ?_
      rw [readOne, hb.read_eq h]
      rfl
  | finished c h hnil =>
      refine ⟨c, (Reading.Halt.unexpected .start []).fault c.source 0, ?_⟩
      rw [harvest_of_nil hnil]
      refine .stop ?_
      rw [readOne, read_of_nil hnil h]
      rfl

end Cursor

namespace Tap

variable {t : Tap}

/-! ### Requests -/

def serveAll (room : Nat) : Tap → List Request → List (Source.Reply (Option Expr)) × Tap
  | t, [] => ([], t)
  | t, request :: requests =>
      let (reply, t) := t.serve room request
      let (replies, t) := serveAll room t requests
      (reply :: replies, t)

def handed (reply : Source.Reply (Option Expr)) : Option Expr :=
  match reply.outcome with
  | .ok e? => e?
  | .error _ => none

def handedOut (replies : List (Source.Reply (Option Expr))) : List Expr :=
  replies.filterMap handed

theorem serveAll_cons (t : Tap) (request : Request) (requests : List Request) :
    serveAll room t (request :: requests) =
      ((t.serve room request).1 :: (serveAll room (t.serve room request).2 requests).1,
        (serveAll room (t.serve room request).2 requests).2) := rfl

omit [Text.Alphabet] in
theorem handedOut_cons (reply : Source.Reply (Option Expr))
    (replies : List (Source.Reply (Option Expr))) :
    handedOut (reply :: replies) = (handed reply).toList ++ handedOut replies := by
  rw [handedOut, handedOut, List.filterMap_cons]
  cases handed reply <;> rfl

def Request.IsSeek : Request → Prop
  | .seek _ => True
  | _ => False

section Ahead

variable {c : Cursor}

theorem ahead_read (h : Cursor.Ahead room source es halt c) :
    ∃ left, es = (handed ⟨(c.read room).1.names, (c.read room).1.outcome.map some⟩).toList ++ left ∧
      Cursor.Ahead room source left halt (c.read room).2 := by
  cases es with
  | cons e es =>
      obtain ⟨names, c', hread, -, hleft⟩ := h.read_cons
      rw [hread]
      exact ⟨es, rfl, hleft⟩
  | nil =>
      cases halt with
      | some halt =>
          obtain ⟨names, hread, -⟩ := h.read_of_halt
          rw [hread]
          exact ⟨[], rfl, h⟩
      | none =>
          obtain ⟨⟨fault, hread⟩, -⟩ := h.read_of_end
          rw [hread]
          exact ⟨[], rfl, h⟩

theorem ahead_next (h : Cursor.Ahead room source es halt c) :
    ∃ left, es = (handed (c.next room).1).toList ++ left ∧
      Cursor.Ahead room source left halt (c.next room).2 := by
  cases es with
  | cons e es =>
      obtain ⟨names, c', -, hnext, hleft⟩ := h.read_cons
      rw [hnext]
      exact ⟨es, rfl, hleft⟩
  | nil =>
      cases halt with
      | some halt =>
          obtain ⟨names, -, hnext⟩ := h.read_of_halt
          rw [hnext]
          exact ⟨[], rfl, h.skipBlanks⟩
      | none =>
          rw [h.read_of_end.2]
          exact ⟨[], rfl, h.skipBlanks⟩

end Ahead

/-- One request: the expression that it hands out, if it does, is the next one, and the others are
left. -/
theorem ahead_serve (h : Cursor.Ahead room source es halt t.cursor) {request : Request}
    (hseek : ¬ request.IsSeek) :
    ∃ left, es = (handed (t.serve room request).1).toList ++ left ∧
      Cursor.Ahead room source left halt (t.serve room request).2.cursor := by
  cases request with
  | read => exact ahead_read h
  | next => exact ahead_next h
  | stream => exact ⟨es, rfl, h⟩
  | advance =>
      by_cases hlive : t.live = true
      · simp only [serve, advance, if_pos hlive]
        exact ahead_next h
      · simp only [serve, advance, if_neg hlive]
        exact ⟨es, rfl, h⟩
  | seek pos => exact absurd trivial hseek

/-- Any requests: what they have handed out and what is left are the expressions, in order. -/
theorem ahead_serveAll (h : Cursor.Ahead room source es halt t.cursor) {requests : List Request}
    (hseek : ∀ request ∈ requests, ¬ request.IsSeek) :
    ∃ left, es = handedOut (serveAll room t requests).1 ++ left ∧
      Cursor.Ahead room source left halt (serveAll room t requests).2.cursor := by
  induction requests generalizing t es with
  | nil => exact ⟨es, rfl, h⟩
  | cons request requests ih =>
      obtain ⟨hfirst, hrest⟩ := List.forall_mem_cons.mp hseek
      obtain ⟨left, rfl, hleft⟩ := ahead_serve h hfirst
      obtain ⟨left', rfl, hleft'⟩ := ih hleft hrest
      refine ⟨left', ?_, hleft'⟩
      rw [serveAll_cons, handedOut_cons, List.append_assoc]

theorem serve_of_cons (h : Cursor.Ahead room source (e :: es) halt t.cursor) :
    ∀ request ∈ [Request.read, .next], (t.serve room request).1.outcome = .ok (some e) := by
  obtain ⟨names, c', hread, hnext, -⟩ := h.read_cons
  refine List.forall_mem_cons.mpr ⟨?_, List.forall_mem_singleton.mpr ?_⟩
  · rw [serve, hread]
    rfl
  · rw [serve, hnext]

theorem serve_of_halt {halt : Reading.Halt}
    (h : Cursor.Ahead room source [] (some halt) t.cursor) :
    ∀ request ∈ [Request.read, .next],
      (t.serve room request).1.outcome = .error (halt.fault source 0) ∧
      ∃ blanks, (∀ c ∈ blanks, Text.isBlank c = true) ∧
        t.cursor.remainder = blanks ++ (t.serve room request).2.cursor.remainder := by
  obtain ⟨names, hread, hnext⟩ := h.read_of_halt
  have hblanks : ∃ blanks, (∀ c ∈ blanks, Text.isBlank c = true) ∧
      t.cursor.remainder = blanks ++ t.cursor.skipBlanks.remainder := by
    refine ⟨t.cursor.remainder.takeWhile Text.isBlank, List.all_eq_true.mp List.all_takeWhile, ?_⟩
    rw [Cursor.remainder_skipBlanks h.pos_le, List.takeWhile_append_dropWhile]
  refine List.forall_mem_cons.mpr ⟨?_, List.forall_mem_singleton.mpr ?_⟩
  · rw [serve, hread]
    exact ⟨rfl, [], by simp⟩
  · rw [serve, hnext]
    exact ⟨rfl, hblanks⟩

/-! ### Streams that have ended -/

theorem live_advance (h : ∀ e, (t.serve room .advance).1.outcome ≠ .ok (some e)) :
    (t.serve room .advance).2.live = false := by
  simp only [serve, advance] at h ⊢
  split at h
  · rename_i hlive
    rw [if_pos hlive]
    dsimp only [goesOn] at h ⊢
    split
    · rename_i e heq
      exact absurd heq (h e)
    · rfl
  · rename_i hlive
    rw [if_neg hlive]
    simpa using hlive

/-- Only a request for a stream makes one that can hand out something. -/
theorem live_serveAll (h : t.live = false) {requests : List Request}
    (hstream : Request.stream ∉ requests) : (serveAll room t requests).2.live = false := by
  induction requests generalizing t with
  | nil => exact h
  | cons request requests ih =>
      rw [List.mem_cons, not_or] at hstream
      have hone : (t.serve room request).2.live = false := by
        cases request with
        | stream => exact absurd rfl hstream.1
        | advance =>
            simp only [serve, advance, h]
            exact h
        | _ => exact h
      exact ih hone hstream.2

theorem advance_of_ended (h : t.live = false) :
    (t.serve room .advance).1.outcome = .ok none := by
  simp [serve, advance, h]

/-! ### Draining a text -/

/-- However a text is drained, its expressions come out once each and in order. They are those that
reading at the start gives, again and again; what was handed out are the first of them, and to read
or to ask gives the next. When all are out, asking gives nothing if the whole text can be read, and
else it meets the fault of the whole text as often as one asks or reads; the text that is left
stays, up to blanks. A stream that came to its end or to a fault hands out nothing any more. -/
theorem drained_in_order (room : Nat) (source : List Char) :
    ∃ ns last fault, Repeats (Cursor.readOne room) ⟨source, 0⟩ ns last fault ∧
      (∀ requests : List Request, (∀ request ∈ requests, ¬ request.IsSeek) →
        let served := serveAll room (of source) requests
        let out := handedOut served.1
        let t := served.2
        out <+: ns ∧
        (∀ e, ns[out.length]? = some e → ∀ request ∈ [Request.read, .next],
          (t.serve room request).1.outcome = .ok (some e)) ∧
        (out = ns →
          (∀ es, (Source.all room source).outcome = .ok es →
            (t.serve room .next).1.outcome = .ok none) ∧
          (∀ fault, (Source.all room source).outcome = .error fault →
            ∀ request ∈ [Request.read, .next],
              (t.serve room request).1.outcome = .error fault ∧
              ∃ blanks, (∀ c ∈ blanks, Text.isBlank c = true) ∧
                t.cursor.remainder = blanks ++ (t.serve room request).2.cursor.remainder))) ∧
      (∀ requests more : List Request, .stream ∉ more →
        let t := (serveAll room (of source) requests).2
        (∀ e, (t.serve room .advance).1.outcome ≠ .ok (some e)) →
        let t' := (serveAll room (t.serve room .advance).2 more).2
        (t'.serve room .advance).1.outcome = .ok none) := by
  have hstart := Cursor.ahead_start room source
  have hall := congrArg Source.Reply.outcome (Source.all_eq room source)
  obtain ⟨last, fault, hrepeats⟩ := Cursor.repeats_readOne room hstart.pos_le
  generalize Cursor.harvest room ⟨source, 0⟩ = h at hstart hall hrepeats
  obtain ⟨names, ns, halt⟩ := h
  refine ⟨ns, last, fault, hrepeats, fun requests hseek => ?_, fun requests more hstream h => ?_⟩
  · obtain ⟨left, hsplit, hleft⟩ := ahead_serveAll (t := of source) hstart hseek
    dsimp only at hsplit hleft hall ⊢
    generalize serveAll room (of source) requests = served at hsplit hleft ⊢
    refine ⟨⟨left, hsplit.symm⟩, fun e he => ?_, fun hout => ?_⟩
    · rw [hsplit, List.getElem?_append_right (Nat.le_refl _), Nat.sub_self] at he
      cases left with
      | nil => contradiction
      | cons e' left =>
          obtain rfl : e' = e := Option.some.inj he
          exact serve_of_cons hleft
    · obtain rfl : left = [] := by
        rw [hout] at hsplit
        simpa using hsplit
      cases halt with
      | none =>
          refine ⟨fun es _ => ?_, fun fault hfault => ?_⟩
          · exact congrArg (fun r => r.1.outcome) hleft.read_of_end.2
          · rw [hall] at hfault
            contradiction
      | some halt =>
          refine ⟨fun es hes => ?_, fun fault hfault => ?_⟩
          · rw [hall] at hes
            contradiction
          · obtain rfl := Except.error.inj (hall.symm.trans hfault)
            exact serve_of_halt hleft
  · exact advance_of_ended (live_serveAll (live_advance h) hstream)

end Tap

end

/-- From `7 )` a stream hands out the number; then it comes to a fault, which everyone meets, and
hands out nothing more. -/
theorem Tap.drained_in_order_stray_paren :
    let source := ['7', ' ', ')']
    let served := serveAll 1 (of source) [.stream, .advance]
    let t := served.2
    let t' := (serveAll 1 (t.serve 1 .advance).2 [.read, .next]).2
    handedOut served.1 = [.literal (.int 7)] ∧
      (∀ request ∈ [Request.read, .next], (t.serve 1 request).1.outcome =
        .error (.unexpected ⟨2, 1, 3⟩ (some ')') Reading.exprKinds)) ∧
      (t'.serve 1 .advance).1.outcome = .ok none := by
  intro source served t t'
  have hlexemes : Cursor.lexemes ⟨source, 0⟩ = [⟨0, .digits ['7']⟩, ⟨2, .rparen⟩] := by
    decide +kernel
  have hlexemes' : Cursor.lexemes ⟨source, 2⟩ = [⟨2, .rparen⟩] := by decide +kernel
  have hread : Cursor.read 1 ⟨source, 0⟩ = (⟨[], .ok (.literal (.int 7))⟩, ⟨source, 2⟩) := by
    rw [Cursor.read, hlexemes]
    rfl
  have hread' : Cursor.read 1 ⟨source, 2⟩ =
      (⟨[], .error (.unexpected ⟨2, 1, 3⟩ (some ')') Reading.exprKinds)⟩, ⟨source, 2⟩) := by
    rw [Cursor.read, hlexemes']
    rfl
  have hserved : served =
      ([⟨[], .ok none⟩, ⟨[], .ok (some (.literal (.int 7)))⟩], ⟨⟨source, 2⟩, true⟩) := by
    have hskip : Cursor.skipBlanks ⟨source, 0⟩ = ⟨source, 0⟩ := by
      rw [Cursor.skipBlanks, hlexemes]
      rfl
    simp only [served, serveAll, serve, advance, of, Cursor.next, hskip, hread]
    rfl
  have hadvance : (t.serve 1 .advance).1.outcome =
      .error (.unexpected ⟨2, 1, 3⟩ (some ')') Reading.exprKinds) := by
    have hskip : Cursor.skipBlanks ⟨source, 2⟩ = ⟨source, 2⟩ := by
      rw [Cursor.skipBlanks, hlexemes']
      rfl
    simp only [t, hserved, serve, advance, Cursor.next, hskip, hread']
    rfl
  have hall : (Source.all 1 source).outcome =
      .error (.unexpected ⟨2, 1, 3⟩ (some ')') Reading.exprKinds) := by
    rw [Source.all, show Lexeme.scan 0 source = _ from hlexemes]
    rfl
  obtain ⟨ns, last, fault, hrepeats, hdrained, hended⟩ := drained_in_order 1 source
  have hns : ns = [.literal (.int 7)] := by
    have hone : Cursor.readOne 1 ⟨source, 0⟩ = .ok (.literal (.int 7), ⟨source, 2⟩) := by
      rw [Cursor.readOne, hread]
      rfl
    have hstop : Cursor.readOne 1 ⟨source, 2⟩ =
        .error (.unexpected ⟨2, 1, 3⟩ (some ')') Reading.exprKinds) := by
      rw [Cursor.readOne, hread']
      rfl
    exact (hrepeats.unique (.more hone (.stop hstop))).1
  have hout : handedOut served.1 = [.literal (.int 7)] := by
    rw [hserved]
    rfl
  obtain ⟨-, -, hrest⟩ := hdrained [.stream, .advance] (by simp [Request.IsSeek])
  refine ⟨hout, fun request hmem => ?_, ?_⟩
  · exact ((hrest (hout.trans hns.symm)).2 _ hall request hmem).1
  · refine hended [.stream, .advance] [.read, .next] (by simp) fun e he => ?_
    exact absurd (hadvance.symm.trans he) (by simp)

end SproutLang
