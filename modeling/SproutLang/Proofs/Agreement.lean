import SproutLang.Proofs.Lookahead

/-!
The reading machine against the descent. The machine takes one token at a time and never goes back;
the descent tries one alternative after another, and what it has tried in vain stays in its memory.
They agree on every text: they find the same expression with the same end, or meet the same fault;
and either way the descent has hashed the names that the machine has accepted, each once.

The alternatives in vain are those whose first token is not there, and what begins with that token
is never found by a later alternative either. So the machine may follow the first alternative that
its token allows: where the descent fails further on, the machine is at a token that its state
refuses, with no way back needed. The record says the same of that place as the state. All that is
tried where a token was taken lies further back; and of the kinds that the state accepts, each was
tried at the token that it refuses. Alternatives that come after a failure further on begin further
back again, so that they neither hash a name nor change the record.
-/

namespace SproutLang

namespace Descent

open Reading (State Move Pending)

variable [Text.Alphabet] {source : List Char} {room : Nat} {s s' : State} {mv : Move} {t : Token}
  {pl pl' mid : Place} {m m' : Memory} {e : Option ReadFault × Memory}

/-! ### The machine from place to place -/

/-- With the tokens between the places the machine gets from the state `s` to the move `mv`, and the
names among them are those that were heard on the way. -/
def Goes (source : List Char) (room : Nat) (s : State) (pl : Place) (mv : Move) (pl' : Place) :
    Prop :=
  pl.pos ≤ pl'.pos ∧ ∃ taken, ahead source pl.pos = taken ++ ahead source pl'.pos ∧
    Reading.Path room s (taken.map Lexeme.token) mv ∧
    pl.memory.Heard (Reading.namesOf taken) pl'.memory

theorem goes_self (s : State) (pl : Place) : Goes source room s pl (.go s) pl :=
  ⟨Nat.le_refl _, [], rfl, .stay s, Memory.heard_nil _⟩

theorem Goes.trans (h : Goes source room s pl (.go s') mid) (h' : Goes source room s' mid mv pl') :
    Goes source room s pl mv pl' := by
  obtain ⟨hle, taken, hsplit, hpath, hheard⟩ := h
  obtain ⟨hle', taken', hsplit', hpath', hheard'⟩ := h'
  refine ⟨Nat.le_trans hle hle', taken ++ taken', ?_, ?_, ?_⟩
  · rw [hsplit, hsplit', List.append_assoc]
  · rw [List.map_append]
    exact hpath.append hpath'
  · rw [Reading.namesOf_append]
    exact hheard.trans hheard'

theorem Goes.behindBlanks (h : Goes source room s pl mv pl') (hle : pl'.pos ≤ source.length) :
    Goes source room s pl mv (pl'.pastBlanks source) := by
  obtain ⟨hpos, taken, hsplit, hpath, hheard⟩ := h
  refine ⟨Nat.le_trans hpos (le_skip source hle), taken, ?_, hpath, hheard⟩
  rw [hsplit]
  exact congrArg (taken ++ ·) (ahead_skip source pl'.pos).symm

/-- Where no name was heard, nothing was taken as far as the machine is concerned. -/
theorem goes_of_heard_nil (s : State) (h : pl.memory.Heard [] m) :
    Goes source room s pl (.go s) ⟨pl.pos, m⟩ :=
  ⟨Nat.le_refl _, [], rfl, .stay s, h⟩

theorem Next.goes (h : Next source pl.pos t) (hstep : Reading.step room s t = mv)
    (hheard : pl.memory.Heard t.names m) :
    Goes source room s pl mv ⟨skip source pl.pos + t.text.length, m⟩ := by
  have hpos := h.pos_lt
  refine ⟨?_, [⟨skip source pl.pos, t⟩], h.ahead_eq, .last hstep, ?_⟩
  · show pl.pos ≤ skip source pl.pos + t.text.length
    omega
  · rw [Reading.namesOf_cons, Reading.namesOf_nil, List.append_nil]
    exact hheard

/-! ### Where the machine halts -/

/-- What is left of a fault where it only matters that something was not found: the faults that end
a reading at once. -/
def lasting : ReadFault → Option ReadFault
  | .unexpected .. => none
  | fault => some fault

/-- At `pos` the machine halts at once: at a token that its state refuses, with a record of the
kinds that the state accepts, or with the fault that is given. -/
def Halts (source : List Char) (room : Nat) (s : State) (pos : Nat) :
    Option ReadFault × Memory → Prop
  | (none, m) =>
      Reading.one room s (ahead source pos) = ⟨[], .error (.unexpected s (ahead source pos))⟩ ∧
        m.record.Marks (skip source pos) s.expected
  | (some fault, _) => ∃ halt, Reading.one room s (ahead source pos) = ⟨[], .error halt⟩ ∧
      (∀ start, halt.fault source start = fault) ∧ lasting fault = some fault

def Stops (source : List Char) (room : Nat) (s : State) (pl : Place)
    (e : Option ReadFault × Memory) : Prop :=
  ∃ s' pos, Goes source room s pl (.go s') ⟨pos, e.2⟩ ∧ Halts source room s' pos e

theorem Goes.stops (h : Goes source room s pl (.go s') mid) (h' : Stops source room s' mid e) :
    Stops source room s pl e := by
  obtain ⟨s'', pos, hgoes, hhalts⟩ := h'
  exact ⟨s'', pos, h.trans hgoes, hhalts⟩

omit [Text.Alphabet] in
theorem step_of_not_expected (h : ∀ k ∈ s.expected, t.kind? ≠ some k) :
    Reading.step room s t = .unexpected := by
  cases hk : t.kind? with
  | some k => exact (Reading.step_eq_unexpected_iff hk).mpr fun hmem => h k hmem hk
  | none =>
      cases t with
      | unknown c => cases s <;> rfl
      | _ => contradiction

/-- At a token that the state does not expect, or at the end, the machine stops, and the record is
right if it has the kinds that were expected. -/
theorem stops_of_marks (h : ∀ k ∈ s.expected, ¬ Shows source pl.pos k)
    (hheard : pl.memory.Heard [] m)
    (hmarks : m.record.Marks (skip source pl.pos) s.expected) :
    Stops source room s pl (none, m) := by
  refine ⟨s, pl.pos, goes_of_heard_nil s hheard, ?_, hmarks⟩
  rcases next_cases source pl.pos with ⟨hnil, -⟩ | ⟨t, hnext⟩
  · rw [hnil]
    rfl
  · have hstep : Reading.step room s t = .unexpected :=
      step_of_not_expected fun k hk ht => h k hk ((hnext.shows_iff k).mpr ht)
    rw [hnext.ahead_eq, Reading.one, hstep]

/-- The record of a stop is no further back than where the machine started. -/
theorem Stops.exists_reached (h : Stops source room s pl (none, m))
    (hpos : pl.pos ≤ source.length) : ∃ q, m.record.reached = some q ∧ pl.pos ≤ q := by
  obtain ⟨s', pos, ⟨hle, -⟩, -, hmarks⟩ := h
  refine ⟨_, hmarks.reached_eq (Reading.expected_ne_nil s'), ?_⟩
  have hmin := min_le_skip source pos
  have hle' : pl.pos ≤ pos := hle
  omega

/-- A token at which the machine halts for good. -/
theorem Next.stops (h : Next source pl.pos t) (halt : Reading.Halt) {fault : ReadFault}
    (hone : ∀ rest, Reading.one room s (⟨skip source pl.pos, t⟩ :: rest) = ⟨[], .error halt⟩)
    (hfault : ∀ start, halt.fault source start = fault) (hlasting : lasting fault = some fault)
    (hheard : pl.memory.Heard [] m) : Stops source room s pl (some fault, m) := by
  refine ⟨s, pl.pos, goes_of_heard_nil s hheard, halt, ?_, hfault, hlasting⟩
  rw [h.ahead_eq, hone]

/-! ### Attempts that the machine follows -/

section

variable {α β : Type} {post : α → State → Memory → Place → Prop}

def Place.Clear (pl : Place) : Prop :=
  pl.memory.record.Before pl.pos

theorem Place.Clear.marks (h : pl.Clear) (hpos : pl.pos ≤ source.length) :
    pl.memory.record.Marks (skip source pl.pos) [] :=
  Record.Before.marks h (le_skip source hpos)

theorem Place.Clear.upTo (h : pl.Clear) (hpos : pl.pos ≤ source.length) :
    pl.memory.record.UpTo (skip source pl.pos) :=
  (h.marks hpos).upTo

/-- The attempt leads the machine, from the state `s` at `pl`, to a state as `post` says, or to
where it stops. The memory that `post` speaks of is that of the tokens up to the place that was
found; the attempt may have tried more in vain. -/
def Leads (source : List Char) (room : Nat) (s : State) (pl : Place)
    (post : α → State → Memory → Place → Prop) : Attempt α → Prop
  | .ok (a, pl') => pl'.pos ≤ source.length ∧
      ∃ s' m, Goes source room s pl (.go s') ⟨pl'.pos, m⟩ ∧ post a s' m pl'
  | .error e => Stops source room s pl e

/-- The state is the next one, and nothing was tried in vain behind the token before it. -/
def Arrives (next : α → State) : α → State → Memory → Place → Prop :=
  fun a s m pl => s = next a ∧ m = pl.memory ∧ pl.Clear

theorem Leads.after {x : Attempt α} (h : Goes source room s pl (.go s') mid)
    (hx : Leads source room s' mid post x) : Leads source room s pl post x := by
  match x, hx with
  | .error e, hx => exact h.stops hx
  | .ok (a, pl'), ⟨hle, s'', m, hgoes, hpost⟩ => exact ⟨hle, s'', m, h.trans hgoes, hpost⟩

theorem leads_pure {a : α} (hpos : pl'.pos ≤ source.length) (h : post a s m pl') :
    Leads source room s ⟨pl'.pos, m⟩ post ((pure a : Scan α) pl') :=
  ⟨hpos, s, m, goes_self s _, h⟩

theorem Leads.bind {post' : β → State → Memory → Place → Prop} {x : Scan α} {f : α → Scan β}
    (h : Leads source room s pl post (x pl))
    (hf : ∀ a s' m pl', pl'.pos ≤ source.length → post a s' m pl' →
      Leads source room s' ⟨pl'.pos, m⟩ post' (f a pl')) :
    Leads source room s pl post' ((x >>= f) pl) := by
  cases hx : x pl with
  | error e =>
      rw [hx] at h
      rw [bind_of_error hx]
      exact h
  | ok r =>
      rw [hx] at h
      obtain ⟨hle, s', m, hgoes, hpost⟩ := h
      rw [bind_of_ok hx]
      exact Leads.after hgoes (hf r.1 s' m r.2 hle hpost)

/-- The step after one that arrives. -/
theorem Leads.andThen {next : α → State} {post' : β → State → Memory → Place → Prop}
    {x : Scan α} {f : α → Scan β} (h : Leads source room s pl (Arrives next) (x pl))
    (hf : ∀ a pl', pl'.pos ≤ source.length → pl'.Clear →
      Leads source room (next a) pl' post' (f a pl')) :
    Leads source room s pl post' ((x >>= f) pl) := by
  refine h.bind fun a s' m pl' hle hpost => ?_
  obtain ⟨rfl, rfl, hclear⟩ := hpost
  exact hf a pl' hle hclear

/-- A single character that is there, and that the state goes on with. -/
theorem exists_of_punct {k : Token.Kind} {c : Char} {tok : Token} (hk : IsPunct k c tok)
    (hshows : Shows source pl.pos k) (hstep : Reading.step room s tok = mv)
    (hupTo : pl.memory.record.UpTo (skip source pl.pos)) :
    ∃ pl', (punct source c k).scan pl = .ok ((), pl') ∧ pl'.pos ≤ source.length ∧ pl'.Clear ∧
      Goes source room s pl mv pl' ∧ skip source pl.pos < pl'.pos := by
  obtain ⟨t, hnext, ht⟩ := exists_next_of_shows hshows
  obtain rfl := hk.eq_of_kind t ht
  have hheard : pl.memory.Heard t.names pl.memory := by
    rw [hk.names_eq]
    exact Memory.heard_nil _
  have hgoes := hnext.goes hstep hheard
  have hle := hnext.le
  rw [hk.text_eq] at hgoes hle
  have hlt : skip source pl.pos < skip source (skip source pl.pos + 1) := le_skip source hle
  exact ⟨⟨skip source (skip source pl.pos + 1), pl.memory⟩, punct_of_shows hk hshows,
    skip_le source _, hupTo.before hlt, hgoes.behindBlanks hle, hlt⟩

/-- A single character that the state goes on with, or else stops at. -/
theorem leads_punct {k : Token.Kind} {c : Char} {tok : Token} (hk : IsPunct k c tok)
    (hstep : Reading.step room s tok = .go s')
    (hupTo : pl.memory.record.UpTo (skip source pl.pos))
    (hstop : ¬ Shows source pl.pos k →
      Stops source room s pl (none, pl.memory.miss (skip source pl.pos) k)) :
    Leads source room s pl (Arrives fun _ => s') ((punct source c k).scan pl) := by
  by_cases hshows : Shows source pl.pos k
  · obtain ⟨pl', hscan, hle, hclear, hgoes, -⟩ := exists_of_punct hk hshows hstep hupTo
    rw [hscan]
    exact ⟨hle, s', pl'.memory, hgoes, rfl, rfl, hclear⟩
  · rw [punct_of_not_shows hk hshows]
    exact hstop hshows

/-- The state accepts one kind only, and there is no token of it. -/
theorem stops_of_singleton {k : Token.Kind} (hexpected : s.expected = [k])
    (hpos : pl.pos ≤ source.length) (hclear : pl.Clear) (h : ¬ Shows source pl.pos k) :
    Stops source room s pl (none, pl.memory.miss (skip source pl.pos) k) := by
  refine stops_of_marks ?_ ((Memory.heard_nil _).miss _ _) ?_
  · rw [hexpected]
    exact List.forall_mem_singleton.mpr h
  · rw [hexpected]
    exact (hclear.marks hpos).miss k

end

/-! ### Names -/

section

variable {outer : List Pending} {letters : List Char}

/-- A name that is found is a token for the machine. -/
theorem goes_of_ident (h : (ident source).scan pl = .ok (letters, pl'))
    (hstep : Reading.step room s (.name letters) = mv) (hclear : pl.Clear) :
    Goes source room s pl mv pl' ∧ pl'.Clear := by
  obtain ⟨hlt, -⟩ := (ident source).advances pl letters pl' h
  obtain ⟨hnext, rfl⟩ := next_of_ident h
  refine ⟨(hnext.goes hstep (Memory.heard_hash _ _)).behindBlanks hnext.le, fun q hq => ?_⟩
  exact Nat.lt_trans (hclear q hq) hlt

theorem leads_target (hpos : pl.pos ≤ source.length) (hclear : pl.Clear) :
    Leads source room (.target outer) pl
      (Arrives fun letters => .expr (.value (Reading.keyOf letters) :: outer))
      ((ident source).scan pl) := by
  cases hscan : (ident source).scan pl with
  | ok r =>
      obtain ⟨-, hle⟩ := (ident source).advances pl r.1 r.2 hscan
      obtain ⟨hgoes, hclear'⟩ := goes_of_ident hscan rfl hclear
      exact ⟨hle, _, r.2.memory, hgoes, rfl, rfl, hclear'⟩
  | error e =>
      obtain ⟨rfl, hnot⟩ := not_shows_of_ident hscan
      exact stops_of_singleton rfl hpos hclear hnot

theorem goes_params {runs : List (List Char)} {stop : Option ReadFault × Memory}
    (h : Repeats (ident source).scan pl runs pl' stop) (hclear : pl.Clear) (names : List Key) :
    Goes source room (.params names outer) pl
      (.go (.params (names ++ runs.map Reading.keyOf) outer)) pl' ∧ pl'.Clear := by
  induction h generalizing names with
  | @stop pl stop _ =>
      rw [List.map_nil, List.append_nil]
      exact ⟨goes_self _ pl, hclear⟩
  | @more pl mid pl' letters runs stop hscan _ ih =>
      obtain ⟨hfirst, hmid⟩ := goes_of_ident hscan rfl hclear
      obtain ⟨hrest, hlast⟩ := ih hmid (names ++ [Reading.keyOf letters])
      rw [List.append_assoc] at hrest
      exact ⟨hfirst.trans hrest, hlast⟩

/-- The names of the parameters end where another one was tried in vain. -/
theorem leads_params (hpos : pl.pos ≤ source.length) (hclear : pl.Clear) :
    Leads source room (.params [] outer) pl
      (fun runs s' m pl' => s' = .params (runs.map Reading.keyOf) outer ∧ m = pl'.memory ∧
        ¬ Shows source pl'.pos .identifier ∧
        pl'.memory.record.Marks (skip source pl'.pos) [.identifier])
      (loop (ident source) pl) := by
  obtain ⟨runs, last, stop, hrepeats, hloop, hbounds⟩ := exists_repeats (ident source) pl
  obtain ⟨rfl, hnot⟩ := not_shows_of_ident hrepeats.last
  obtain ⟨-, hle⟩ := hbounds hpos
  obtain ⟨hgoes, hlast⟩ := goes_params hrepeats hclear []
  have hheard := (Memory.heard_nil last.memory).miss (skip source last.pos) .identifier
  rw [hloop]
  refine ⟨hle, _, _, hgoes.trans (goes_of_heard_nil _ hheard), rfl, rfl, hnot, ?_⟩
  exact (hlast.marks hle).miss .identifier

end

/-! ### Forms -/

section

variable {outer : List Pending} {result : Expr}

def Finds (source : List Char) (room : Nat) (outer : List Pending) (s : State) (pl : Place) :
    Attempt Expr → Prop
  | .ok (e, pl') => pl'.pos ≤ source.length ∧ pl'.Clear ∧
      Goes source room s pl (Reading.complete e outer) pl'
  | .error e => Stops source room s pl e

theorem Finds.after {x : Attempt Expr} (h : Goes source room s pl (.go s') mid)
    (hx : Finds source room outer s' mid x) : Finds source room outer s pl x := by
  match x, hx with
  | .error e, hx => exact h.stops hx
  | .ok (e, pl'), ⟨hle, hclear, hgoes⟩ => exact ⟨hle, hclear, h.trans hgoes⟩

theorem Leads.finds {α : Type} {post : α → State → Memory → Place → Prop} {x : Scan α}
    {f : α → Scan Expr} (h : Leads source room s pl post (x pl))
    (hf : ∀ a s' m pl', post a s' m pl' → Finds source room outer s' ⟨pl'.pos, m⟩ (f a pl')) :
    Finds source room outer s pl ((x >>= f) pl) := by
  cases hx : x pl with
  | error e =>
      rw [hx] at h
      rw [bind_of_error hx]
      exact h
  | ok r =>
      rw [hx] at h
      obtain ⟨-, s', m, hgoes, hpost⟩ := h
      rw [bind_of_ok hx]
      exact Finds.after hgoes (hf r.1 s' m r.2 hpost)

def Closes (source : List Char) (room : Nat) (outer : List Pending) (e : Expr) (s : State)
    (m : Memory) (pl : Place) : Prop :=
  Finds source room outer s ⟨pl.pos, m⟩
    (((punct source ')' .rparen).scan >>= fun _ => pure e) pl)

theorem closes (hstep : Reading.step room s .rparen = Reading.complete result outer)
    (hupTo : pl.memory.record.UpTo (skip source pl.pos))
    (hstop : ¬ Shows source pl.pos .rparen →
      Stops source room s pl (none, pl.memory.miss (skip source pl.pos) .rparen)) :
    Closes source room outer result s pl.memory pl := by
  rw [Closes]
  by_cases hshows : Shows source pl.pos .rparen
  · obtain ⟨pl', hscan, hle, hclear, hgoes, -⟩ :=
      exists_of_punct isPunct_rparen hshows hstep hupTo
    rw [bind_of_ok hscan]
    exact ⟨hle, hclear, hgoes⟩
  · rw [bind_of_error (punct_of_not_shows isPunct_rparen hshows)]
    exact hstop hshows

def Opens (source : List Char) (pos : Nat) : Prop :=
  ∃ k ∈ Reading.exprKinds, Shows source pos k

def tried : List Token.Kind :=
  [.falseMark, .digit, .identifier, .lparen]

omit [Text.Alphabet] in
theorem mem_tried_iff (k : Token.Kind) : k ∈ tried ↔ k ∈ Reading.exprKinds := by
  cases k <;> decide

/-- The machine follows the scan at expressions inside the forms `outer`. Where none starts, the
scan has tried what could start one; where one starts and is not found, the record has come further
than its first token. -/
structure Follows (source : List Char) (room : Nat) (outer : List Pending) (x : Scan Expr) :
    Prop where
  finds : ∀ pl, pl.pos ≤ source.length → pl.memory.record.UpTo (skip source pl.pos) →
    Opens source pl.pos → Finds source room outer (.expr outer) pl (x pl)
  beyond : ∀ pl m, pl.pos ≤ source.length → pl.memory.record.UpTo (skip source pl.pos) →
    Opens source pl.pos → x pl = .error (none, m) →
    ∃ q, m.record.reached = some q ∧ skip source pl.pos < q
  absent : ∀ pl, ¬ Opens source pl.pos →
    x pl = .error (none, pl.memory.missAll (skip source pl.pos) tried)

variable {expr : Rule source Expr}

/-- An expression that a form has to go on with. -/
theorem leads_expr {p : Pending} (hexpr : Follows source room (p :: outer) expr.scan)
    (hpos : pl.pos ≤ source.length) (hupTo : pl.memory.record.UpTo (skip source pl.pos))
    {next : Expr → State} (hnext : ∀ e, Reading.complete e (p :: outer) = .go (next e))
    (hstop : ¬ Opens source pl.pos → Stops source room (.expr (p :: outer)) pl
      (none, pl.memory.missAll (skip source pl.pos) tried)) :
    Leads source room (.expr (p :: outer)) pl (Arrives next) (expr.scan pl) := by
  by_cases hopens : Opens source pl.pos
  · have hfinds := hexpr.finds pl hpos hupTo hopens
    cases hscan : expr.scan pl with
    | error e =>
        rw [hscan] at hfinds
        exact hfinds
    | ok r =>
        rw [hscan, Finds, hnext] at hfinds
        obtain ⟨hle, hclear, hgoes⟩ := hfinds
        exact ⟨hle, _, r.2.memory, hgoes, rfl, rfl, hclear⟩
  · rw [hexpr.absent pl hopens]
    exact hstop hopens

theorem goes_row (hexpr : ∀ p, Follows source room (p :: outer) expr.scan) {es : List Expr}
    {stop : Option ReadFault × Memory} (h : Repeats expr.scan pl es pl' stop)
    (hpos : pl.pos ≤ source.length) (hclear : pl.Clear) (frame : List Expr → Pending)
    (hframe : ∀ es e, Reading.complete e (frame es :: outer) =
      .go (.expr (frame (es ++ [e]) :: outer))) (taken : List Expr) :
    Goes source room (.expr (frame taken :: outer)) pl
      (.go (.expr (frame (taken ++ es) :: outer))) pl' ∧ pl'.Clear := by
  induction h generalizing taken with
  | @stop pl stop _ =>
      rw [List.append_nil]
      exact ⟨goes_self _ pl, hclear⟩
  | @more pl mid pl' e es stop hscan _ ih =>
      have hopens : Opens source pl.pos := by
        refine Classical.byContradiction fun hnot => ?_
        rw [(hexpr (frame taken)).absent pl hnot] at hscan
        contradiction
      have hfinds := (hexpr (frame taken)).finds pl hpos (hclear.upTo hpos) hopens
      rw [hscan, Finds, hframe] at hfinds
      obtain ⟨hmid, hclear', hfirst⟩ := hfinds
      obtain ⟨hrest, hlast⟩ := ih hmid hclear' (taken ++ [e])
      rw [List.append_assoc] at hrest
      exact ⟨hfirst.trans hrest, hlast⟩

/-- How a row of expressions ends: where none starts, with all tried that could start one; or where
one starts that is not found, with the record further on. -/
def RowEnds (source : List Char) (room : Nat) (s : State) (m : Memory) (pl : Place) : Prop :=
  (¬ Opens source pl.pos ∧ m = pl.memory ∧
    pl.memory.record.Marks (skip source pl.pos) tried) ∨
  (Opens source pl.pos ∧ Stops source room s ⟨pl.pos, m⟩ (none, pl.memory) ∧
    ∃ q, pl.memory.record.reached = some q ∧ skip source pl.pos < q)

theorem leads_row (hexpr : ∀ p, Follows source room (p :: outer) expr.scan)
    (hpos : pl.pos ≤ source.length) (hclear : pl.Clear) (frame : List Expr → Pending)
    (hframe : ∀ es e, Reading.complete e (frame es :: outer) =
      .go (.expr (frame (es ++ [e]) :: outer))) :
    Leads source room (.expr (frame [] :: outer)) pl
      (fun es s' m pl' => s' = .expr (frame es :: outer) ∧ RowEnds source room s' m pl')
      (loop expr pl) := by
  obtain ⟨es, last, stop, hrepeats, hloop, hbounds⟩ := exists_repeats expr pl
  obtain ⟨-, hle⟩ := hbounds hpos
  obtain ⟨hgoes, hlast⟩ := goes_row hexpr hrepeats hpos hclear frame hframe []
  have hend := hrepeats.last
  rw [hloop]
  by_cases hopens : Opens source last.pos
  · have hfinds := (hexpr (frame es)).finds last hle (hlast.upTo hle) hopens
    rw [hend] at hfinds
    obtain ⟨_ | fault, m⟩ := stop
    · have hbeyond := (hexpr (frame es)).beyond last m hle (hlast.upTo hle) hopens hend
      exact ⟨hle, _, last.memory, hgoes, rfl, .inr ⟨hopens, hfinds, hbeyond⟩⟩
    · exact hgoes.stops hfinds
  · rw [(hexpr (frame es)).absent last hopens] at hend
    obtain rfl := Except.error.inj hend
    have hmarks := Memory.marks_missAll (hlast.marks hle) tried
    rw [List.append_nil] at hmarks
    have hheard := last.memory.heard_missAll (skip source last.pos) tried
    exact ⟨hle, _, _, hgoes.trans (goes_of_heard_nil _ hheard), rfl, .inl ⟨hopens, rfl, hmarks⟩⟩

/-- Where a row of expressions has ended, so may the form that it is in. -/
theorem closes_row {p : Pending}
    (hexpected : (State.expr (p :: outer)).expected =
      [.falseMark, .lparen, .rparen, .digit, .identifier])
    (hstep : Reading.step room (.expr (p :: outer)) .rparen = Reading.complete result outer)
    (h : RowEnds source room (.expr (p :: outer)) m pl) :
    Closes source room outer result (.expr (p :: outer)) m pl := by
  rcases h with ⟨hnot, rfl, hmarks⟩ | ⟨⟨k, hk, hshows⟩, hstops, q, hq, hlt⟩
  · refine closes hstep hmarks.upTo fun hrparen => ?_
    have hmem (k : Token.Kind) :
        k ∈ (State.expr (p :: outer)).expected ↔ k ∈ Token.Kind.rparen :: tried := by
      rw [hexpected]
      cases k <;> decide
    refine stops_of_marks (fun k hk hshows => ?_) ((Memory.heard_nil _).miss _ _) ?_
    · rcases List.mem_cons.mp ((hmem k).mp hk) with rfl | hk
      · exact hrparen hshows
      · exact hnot ⟨k, (mem_tried_iff k).mp hk, hshows⟩
    · exact (hmarks.miss .rparen).congr hmem
  · -- The parenthesis is tried at a token that starts an expression, further back than the record.
    have hrparen : ¬ Shows source pl.pos .rparen := fun h => by
      rw [shows_unique hshows h] at hk
      contradiction
    rw [Closes, bind_of_error (punct_of_not_shows isPunct_rparen hrparen),
      Memory.miss_of_lt hq hlt]
    exact hstops

theorem function_of_not_shows (expr : Rule source Expr) (pl : Place)
    (h : ¬ Shows source pl.pos .backslash) :
    function expr pl = .error (none, pl.memory.miss (skip source pl.pos) .backslash) :=
  bind_of_error (punct_of_not_shows isPunct_backslash h)

theorem definition_of_not_shows (expr : Rule source Expr) (pl : Place)
    (h : ¬ Shows source pl.pos .equals) :
    definition expr pl = .error (none, pl.memory.miss (skip source pl.pos) .equals) :=
  bind_of_error (punct_of_not_shows isPunct_equals h)

theorem call_of_not_opens {p : Pending} (hexpr : Follows source room (p :: outer) expr.scan)
    (pl : Place) (h : ¬ Opens source pl.pos) :
    call expr pl = .error (none, pl.memory.missAll (skip source pl.pos) tried) :=
  bind_of_error (hexpr.absent pl h)

/-- A function, from behind its backslash on. -/
theorem leads_function (hexpr : ∀ p, Follows source room (p :: outer) expr.scan) (pl : Place)
    (hupTo : pl.memory.record.UpTo (skip source pl.pos))
    (hshows : Shows source pl.pos .backslash) :
    ∃ mid, mid.pos ≤ source.length ∧ skip source pl.pos < mid.pos ∧
      Goes source room (.expr (.callee :: outer)) pl (.go (.header outer)) mid ∧
      Leads source room (.header outer) mid (Closes source room outer) (function expr pl) := by
  obtain ⟨mid, hscan, hle, hclear, hgoes, hlt⟩ :=
    exists_of_punct isPunct_backslash hshows rfl hupTo
  refine ⟨mid, hle, hlt, hgoes, ?_⟩
  rw [function, bind_of_ok hscan]
  refine (leads_punct isPunct_lparen rfl (hclear.upTo hle)
    (stops_of_singleton rfl hle hclear)).andThen fun _ pl hle hclear => ?_
  refine (leads_params hle hclear).bind fun params s' m pl hle hpost => ?_
  obtain ⟨rfl, rfl, hname, hmarks⟩ := hpost
  refine (leads_punct isPunct_rparen rfl hmarks.upTo fun hnot => ?_).andThen
    fun _ pl hle hclear => ?_
  · refine stops_of_marks ?_ ((Memory.heard_nil _).miss _ _) (hmarks.miss .rparen)
    simp [State.expected, hnot, hname]
  refine (leads_row hexpr hle hclear (.statement (params.map Reading.keyOf)) fun _ _ => rfl).bind
    fun body s' m pl hle hpost => ?_
  obtain ⟨rfl, hends⟩ := hpost
  exact leads_pure hle (closes_row rfl rfl hends)

/-- A definition, from behind its equals sign on. -/
theorem leads_definition (hexpr : ∀ p, Follows source room (p :: outer) expr.scan) (pl : Place)
    (hupTo : pl.memory.record.UpTo (skip source pl.pos))
    (hshows : Shows source pl.pos .equals) :
    ∃ mid, mid.pos ≤ source.length ∧ skip source pl.pos < mid.pos ∧
      Goes source room (.expr (.callee :: outer)) pl (.go (.target outer)) mid ∧
      Leads source room (.target outer) mid (Closes source room outer) (definition expr pl) := by
  obtain ⟨mid, hscan, hle, hclear, hgoes, hlt⟩ := exists_of_punct isPunct_equals hshows rfl hupTo
  refine ⟨mid, hle, hlt, hgoes, ?_⟩
  rw [definition, bind_of_ok hscan]
  refine (leads_target hle hclear).andThen fun target pl hle hclear => ?_
  refine (leads_expr (hexpr _) hle (hclear.upTo hle) (fun _ => rfl) fun hnot => ?_).andThen
    fun value pl hle hclear => ?_
  · have hmarks := Memory.marks_missAll (hclear.marks hle) tried
    refine stops_of_marks (fun k hk hshows => hnot ⟨k, hk, hshows⟩)
      (Memory.heard_missAll _ _ _) (hmarks.congr fun k => ?_)
    rw [List.append_nil]
    exact (mem_tried_iff k).symm
  refine leads_pure hle (closes rfl (hclear.upTo hle) fun hnot => ?_)
  exact stops_of_singleton rfl hle hclear hnot

/-- A call, where neither of the other forms was found. -/
theorem leads_call (hexpr : ∀ p, Follows source room (p :: outer) expr.scan)
    (hpos : pl.pos ≤ source.length) (hbackslash : ¬ Shows source pl.pos .backslash)
    (hequals : ¬ Shows source pl.pos .equals)
    (hmarks : pl.memory.record.Marks (skip source pl.pos) [.equals, .backslash]) :
    Leads source room (.expr (.callee :: outer)) pl (Closes source room outer) (call expr pl) := by
  refine (leads_expr (hexpr _) hpos hmarks.upTo (fun _ => rfl) fun hnot => ?_).andThen
    fun callee pl hle hclear => ?_
  · have hmem (k : Token.Kind) : k ∈ (State.expr (.callee :: outer)).expected ↔
        k ∈ tried ++ [.equals, .backslash] := by
      cases k <;> simp [State.expected, tried]
    refine stops_of_marks (fun k hk hshows => ?_) (Memory.heard_missAll _ _ _)
      ((Memory.marks_missAll hmarks tried).congr hmem)
    rcases List.mem_append.mp ((hmem k).mp hk) with hk | hk
    · exact hnot ⟨k, (mem_tried_iff k).mp hk, hshows⟩
    · simp only [List.mem_cons, List.not_mem_nil, or_false] at hk
      rcases hk with rfl | rfl
      · exact hequals hshows
      · exact hbackslash hshows
  refine (leads_row hexpr hle hclear (.argument callee) fun _ _ => rfl).bind
    fun args s' m pl hle hpost => ?_
  obtain ⟨rfl, hends⟩ := hpost
  exact leads_pure hle (closes_row rfl rfl hends)

/-- What stands in parentheses is told by its first token. The alternatives that the descent tries
before the one that goes with it miss their token; those that it tries after it find nothing, and
what they miss lies further back than the record. -/
theorem finds_inside (hexpr : ∀ p, Follows source room (p :: outer) expr.scan)
    (hpos : pl.pos ≤ source.length) (hclear : pl.Clear) :
    Finds source room outer (.expr (.callee :: outer)) pl (inside expr pl) := by
  have hmarks := hclear.marks hpos
  have hcall {k : Token.Kind} (h : Shows source pl.pos k) (hk : k ∉ Reading.exprKinds) {q : Nat}
      {m : Memory} (hq : m.record.reached = some q) (hlt : skip source pl.pos < q) :
      call expr ⟨pl.pos, m⟩ = .error (none, m) := by
    have hnot : ¬ Opens source pl.pos := by
      rintro ⟨k', hk', h'⟩
      exact hk (shows_unique h h' ▸ hk')
    rw [call_of_not_opens (hexpr .callee) ⟨pl.pos, m⟩ hnot, Memory.missAll_of_lt hq hlt]
  refine Leads.finds ?_ fun e s' m pl' hcloses => hcloses
  by_cases hbackslash : Shows source pl.pos .backslash
  · have hequals : ¬ Shows source pl.pos .equals := fun h =>
      absurd (shows_unique hbackslash h) (by decide)
    obtain ⟨mid, hle, hlt, hgoes, hleads⟩ := leads_function hexpr pl hmarks.upTo hbackslash
    rw [otherwise_of_absent_right]
    · exact hleads.after hgoes
    · intro m hm
      rw [hm] at hleads
      obtain ⟨q, hq, hmid⟩ := Stops.exists_reached hleads hle
      have hbehind : skip source pl.pos < q := Nat.lt_of_lt_of_le hlt hmid
      have hdefinition := definition_of_not_shows expr ⟨pl.pos, m⟩ hequals
      rw [Memory.miss_of_lt hq hbehind] at hdefinition
      rw [otherwise_of_absent hdefinition]
      exact hcall hbackslash (by decide) hq hbehind
  · rw [otherwise_of_absent (function_of_not_shows expr pl hbackslash)]
    have hfirst := hmarks.miss .backslash
    have hheard := (Memory.heard_nil pl.memory).miss (skip source pl.pos) .backslash
    by_cases hequals : Shows source pl.pos .equals
    · obtain ⟨mid, hle, hlt, hgoes, hleads⟩ := leads_definition hexpr
        ⟨pl.pos, pl.memory.miss (skip source pl.pos) .backslash⟩ hfirst.upTo hequals
      rw [otherwise_of_absent_right]
      · exact hleads.after ((goes_of_heard_nil _ hheard).trans hgoes)
      · intro m hm
        rw [hm] at hleads
        obtain ⟨q, hq, hmid⟩ := Stops.exists_reached hleads hle
        exact hcall hequals (by decide) hq (Nat.lt_of_lt_of_le hlt hmid)
    · have hdefinition := definition_of_not_shows expr
        ⟨pl.pos, pl.memory.miss (skip source pl.pos) .backslash⟩ hequals
      rw [otherwise_of_absent hdefinition]
      refine Leads.after (goes_of_heard_nil _ (hheard.miss (skip source pl.pos) .equals)) ?_
      exact leads_call hexpr hpos hbackslash hequals (hfirst.miss .equals)

end

/-! ### Expressions -/

section

variable {outer : List Pending} {expr? : Option (Rule source Expr)} {result : Expr}

theorem choice_of_not_opens (h : ¬ Opens source pl.pos) :
    choice expr? pl = .error (none, pl.memory.missAll (skip source pl.pos) tried) := by
  have hnot {k : Token.Kind} (hk : k ∈ Reading.exprKinds) : ¬ Shows source pl.pos k :=
    fun hshows => h ⟨k, hk, hshows⟩
  rw [(choice_eq expr? pl).2.2.2 (hnot (by decide)) (hnot (by decide)) (hnot (by decide)),
    form_of_not_shows (hnot (by decide))]
  rfl

theorem Finds.pastBlanks {x : Attempt Expr} (h : Finds source room outer s pl x) :
    Finds source room outer s pl (pastBlanks source x) := by
  match x, h with
  | .error e, h => exact h
  | .ok (e, pl'), ⟨hle, hclear, hgoes⟩ =>
      refine ⟨skip_le source _, fun q hq => ?_, hgoes.behindBlanks hle⟩
      exact Nat.lt_of_lt_of_le (hclear q hq) (le_skip source hle)

/-- A token that is an expression by itself. -/
theorem Next.finds (h : Next source pl.pos t)
    (hstep : Reading.step room (.expr outer) t = Reading.complete result outer)
    (hheard : pl.memory.Heard t.names m) (hupTo : m.record.UpTo (skip source pl.pos)) :
    Finds source room outer (.expr outer) pl
      (.ok (result, ⟨skip source pl.pos + t.text.length, m⟩)) :=
  ⟨h.le, hupTo.before h.pos_lt.2, h.goes hstep hheard⟩

theorem finds_integer {digits : List Char} (h : Next source pl.pos (.digits digits))
    (hheard : pl.memory.Heard [] m) (hupTo : m.record.UpTo (skip source pl.pos)) :
    Finds source room outer (.expr outer) pl (integer source ⟨skip source pl.pos, m⟩) := by
  have hrun : run source Text.isAsciiDigit (skip source pl.pos) = digits :=
    h.run_eq h.wellFormed.2 h.ends
  have hstep : Reading.step room (.expr outer) (.digits digits) =
      Reading.integer digits outer := rfl
  simp only [integer, hrun, if_neg h.wellFormed.1]
  split
  · rename_i hmany
    refine h.stops (.tooManyDigits digits.length) (fun rest => ?_) (fun _ => rfl) rfl hheard
    simp only [Reading.one, hstep, Reading.integer, if_pos hmany]
  split
  · rename_i hfew hlarge
    refine h.stops (.outOfRange (skip source pl.pos) digits) (fun rest => ?_)
      (fun _ => rfl) rfl hheard
    simp only [Reading.one, hstep, Reading.integer, if_neg hfew, if_pos hlarge]
  · rename_i hfew hfits
    refine h.finds ?_ hheard hupTo
    rw [hstep, Reading.integer, if_neg hfew, if_neg hfits]

theorem form_of_lparen (h : Next source pl.pos .lparen) (expr? : Option (Rule source Expr))
    (m : Memory) :
    form expr? ⟨skip source pl.pos, m⟩ =
      match expr? with
      | none => .error (some .tooDeep, m)
      | some expr => inside expr ⟨skip source pl.pos + 1, m⟩ :=
  if_pos (isPunct_lparen.shows_iff.mp ((h.shows_iff .lparen).mpr rfl))

/-- What holds of a form holds of the choice of which it is the last alternative. The others find
their token or miss it. -/
theorem follows_choice
    (hform : ∀ pl m, Next source pl.pos .lparen → pl.memory.Heard [] m →
      m.record.UpTo (skip source pl.pos) →
      Finds source room outer (.expr outer) pl (form expr? ⟨skip source pl.pos, m⟩) ∧
      ∀ m', form expr? ⟨skip source pl.pos, m⟩ = .error (none, m') →
        ∃ q, m'.record.reached = some q ∧ skip source pl.pos < q) :
    Follows source room outer (choice expr?) := by
  -- The two statements about an expression that starts are proved together, by its first token.
  have hopens : ∀ pl, pl.memory.record.UpTo (skip source pl.pos) → Opens source pl.pos →
      Finds source room outer (.expr outer) pl (choice expr? pl) ∧
      ∀ m, choice expr? pl = .error (none, m) →
        ∃ q, m.record.reached = some q ∧ skip source pl.pos < q := by
    intro pl hupTo hopens
    obtain ⟨k, hk, hshows⟩ := hopens
    obtain ⟨hfalse, hdigit, hname, hparen⟩ := choice_eq expr? pl
    obtain ⟨t, hnext, ht⟩ := exists_next_of_shows hshows
    have hheard (missed : List Token.Kind) :=
      pl.memory.heard_missAll (skip source pl.pos) missed
    have hstays (missed : List Token.Kind) := Memory.upTo_missAll hupTo missed
    cases t with
    | falseMark =>
        obtain rfl := Option.some.inj ht
        rw [hfalse hshows, falseMark_of_shows hshows]
        exact ⟨(hnext.finds rfl (hheard []) (hstays [])).pastBlanks, fun m hm => by contradiction⟩
    | digits run =>
        obtain rfl := Option.some.inj ht
        rw [hdigit hshows]
        refine ⟨(finds_integer hnext (hheard _) (hstays _)).pastBlanks, fun m hm => ?_⟩
        exact absurd (absent_of_pastBlanks hm) (integer_ne_absent hshows _ m)
    | name letters =>
        obtain rfl := Option.some.inj ht
        rw [hname hshows, reference_of_name hnext]
        have hhash := (hheard [.falseMark, .digit]).trans
          (Memory.heard_hash _ (String.ofList letters))
        have hfinds : Finds source room outer (.expr outer) pl
            (.ok (.ref (Reading.keyOf letters), ⟨skip source pl.pos + letters.length, _⟩)) :=
          hnext.finds rfl hhash (hstays [.falseMark, .digit])
        exact ⟨hfinds.pastBlanks.pastBlanks, fun m hm => by contradiction⟩
    | lparen =>
        have hother {k' : Token.Kind} (hne : .lparen ≠ k') : ¬ Shows source pl.pos k' := fun h' =>
          hne (Option.some.inj ((hnext.shows_iff k').mp h'))
        obtain ⟨hfinds, hbeyond⟩ := hform pl _ hnext (hheard _) (hstays _)
        rw [hparen (hother (by decide)) (hother (by decide)) (hother (by decide))]
        exact ⟨hfinds.pastBlanks, fun m hm => hbeyond m (absent_of_pastBlanks hm)⟩
    | unknown c => contradiction
    | _ =>
        obtain rfl := Option.some.inj ht
        exact absurd hk (by decide)
  exact ⟨fun pl _ hupTo h => (hopens pl hupTo h).1, fun pl m _ hupTo h => (hopens pl hupTo h).2 m,
    fun pl => choice_of_not_opens⟩

/-- The machine follows the descent, at every place and inside any forms. A form that the descent
enters is one more that is open in the machine. -/
theorem follows_expr (room : Nat) (outer : List Pending) :
    Follows source (room + outer.length) outer (expr source room).scan := by
  induction room generalizing outer with
  | zero =>
      refine follows_choice fun pl m hnext hheard _ => ?_
      rw [form_of_lparen hnext]
      refine ⟨hnext.stops .tooDeep (fun rest => ?_) (fun _ => rfl) rfl hheard, fun m hm => ?_⟩
      · simp [Reading.one, Reading.step]
      · simp at hm
  | succ room ih =>
      refine follows_choice fun pl m hnext hheard hupTo => ?_
      have hinner (p : Pending) :
          Follows source (room + 1 + outer.length) (p :: outer) (expr source room).scan := by
        have hfollows := ih (p :: outer)
        rw [List.length_cons, show room + (outer.length + 1) = room + 1 + outer.length by omega]
          at hfollows
        exact hfollows
      have hopen := Reading.step_lparen (show outer.length < room + 1 + outer.length by omega)
      have hgoes := hnext.goes hopen hheard
      have hclear : Place.Clear ⟨skip source pl.pos + 1, m⟩ := hupTo.before (Nat.lt_succ_self _)
      have hfinds := finds_inside hinner hnext.le hclear
      rw [form_of_lparen hnext]
      refine ⟨Finds.after hgoes hfinds, fun m' hm' => ?_⟩
      rw [show inside (expr source room) _ = _ from hm'] at hfinds
      exact Stops.exists_reached hfinds hnext.le

end

/-! ### Agreement -/

/-- An expression that is found ends behind the blanks that follow it. -/
theorem expr_eq_ok {result : Expr} (h : (expr source room).scan pl = .ok (result, pl')) :
    ∃ p, skip source pl.pos < p ∧ p ≤ source.length ∧ pl'.pos = skip source p := by
  cases room with
  | zero => exact exists_of_choice h
  | succ room => exact exists_of_choice h

/-- Once the record is reset, the descent leads the machine from its start, whatever stands in the
text. -/
theorem finds_expr (source : List Char) (room pos : Nat) (m : Memory) :
    Finds source room [] .start ⟨pos, m.reset⟩ ((expr source room).scan ⟨pos, m.reset⟩) := by
  have hfollows : Follows source room [] (expr source room).scan := follows_expr room []
  have hmarks : m.reset.record.Marks (skip source pos) [] :=
    (Record.before_blank _).marks (Nat.le_refl _)
  by_cases hopens : Opens source pos
  · have hpos : pos ≤ source.length := by
      obtain ⟨k, -, hshows⟩ := hopens
      obtain ⟨t, hnext, -⟩ := exists_next_of_shows hshows
      have hle := hnext.le
      have hlt := hnext.pos_lt
      omega
    exact hfollows.finds ⟨pos, m.reset⟩ hpos hmarks.upTo hopens
  · rw [hfollows.absent ⟨pos, m.reset⟩ hopens]
    refine stops_of_marks (fun k hk hshows => hopens ⟨k, hk, hshows⟩) (Memory.heard_missAll _ _ _)
      ((Memory.marks_missAll hmarks tried).congr fun k => ?_)
    rw [List.append_nil]
    exact (mem_tried_iff k).symm

theorem Goes.one_eq (h : Goes source room s pl (.go s') pl') :
    ∃ names, Reading.one room s (ahead source pl.pos) =
        (Reading.one room s' (ahead source pl'.pos)).after names ∧
      pl.memory.Heard names pl'.memory := by
  obtain ⟨-, taken, hsplit, hpath, hheard⟩ := h
  exact ⟨_, by rw [hsplit, Reading.one_of_path_go hpath], hheard⟩

omit [Text.Alphabet] in
/-- The kinds that a state accepts stand in the order of the messages. -/
theorem filter_mem_expected (s : State) :
    Token.Kind.all.filter (fun k => k ∈ s.expected) = s.expected := by
  cases s with
  | expr outer =>
      cases outer with
      | nil => rfl
      | cons p outer => cases p <;> rfl
  | _ => rfl

/-- The record of a place where the machine halts tells what the machine tells. -/
theorem Record.Marks.fault_eq {r : Record} {start pos : Nat} {s : State}
    (h : r.Marks (skip source pos) s.expected) (hle : start ≤ pos) :
    r.fault source start =
      (Reading.Halt.unexpected s (ahead source pos)).fault source start := by
  have hreached := h.reached_eq (Reading.expected_ne_nil s)
  have hmissed : Token.Kind.all.filter (fun k => k ∈ r.missed) = s.expected := by
    have hmem (k : Token.Kind) : k ∈ r.missed ↔ k ∈ s.expected := by
      rw [h.mem_iff]
      simp [hreached]
    simp only [hmem]
    exact filter_mem_expected s
  have hpos : max start (skip source pos) =
      Reading.position (max start source.length) (ahead source pos) := by
    have hskip := position_ahead source pos
    have hmin := min_le_skip source pos
    rcases next_cases source pos with ⟨hnil, -⟩ | ⟨t, hnext⟩
    · rw [hnil] at hskip ⊢
      rw [← hskip]
      rfl
    · have hlt := hnext.pos_lt
      rw [hnext.ahead_eq]
      show max start (skip source pos) = skip source pos
      omega
  simp only [Record.fault, Reading.Halt.fault, hreached, Option.getD_some, hmissed, hpos]

theorem Halts.exists_halt {start pos : Nat} (h : Halts source room s pos e) (hle : start ≤ pos) :
    ∃ halt, Reading.one room s (ahead source pos) = ⟨[], .error halt⟩ ∧
      halt.fault source start = e.1.getD (e.2.record.fault source start) := by
  match e, h with
  | (none, m), ⟨hone, hmarks⟩ => exact ⟨_, hone, (hmarks.fault_eq hle).symm⟩
  | (some fault, m), ⟨halt, hone, hfault, _⟩ => exact ⟨halt, hone, hfault start⟩

end Descent

/-! ### Readers -/

namespace Reader

variable [Text.Alphabet] {β : Type} {room : Nat} {r : Reader}

def tap (r : Reader) : Tap :=
  ⟨r.toCursor, r.live⟩

/-- What the reader answers, and the reader that is left, are as a tap has it; and the names that
the tap reports have been hashed, in order. -/
structure Echoes (r : Reader) (x : Except ReadFault β × Reader) (reply : Source.Reply β)
    (t : Tap) : Prop where
  outcome : x.1 = reply.outcome
  tap : x.2.tap = t
  heard : r.memory.Heard reply.names x.2.memory

theorem echoes_of_machine {result : Reading.Result (Expr × List Lexeme)}
    {x : Except ReadFault Expr × Reader}
    (hone : Reading.one room .start (Descent.ahead r.source r.pos) = result)
    (houtcome : x.1 = match result.outcome with
      | .ok (e, _) => .ok e
      | .error halt => .error (halt.fault r.source r.pos))
    (htap : x.2.tap = ⟨match result.outcome with
      | .ok (_, rest) => r.toCursor.moveTo rest
      | .error _ => r.toCursor, r.live⟩)
    (hheard : r.memory.Heard result.names x.2.memory) :
    r.Echoes x (r.toCursor.read room).1 ⟨(r.toCursor.read room).2, r.live⟩ := by
  subst hone
  have hlexemes : r.toCursor.lexemes = Descent.ahead r.source r.pos := rfl
  cases hout : (Reading.one room .start (Descent.ahead r.source r.pos)).outcome with
  | ok found =>
      rw [hout] at houtcome htap
      rw [Cursor.read_of_ok (hlexemes ▸ hout), hlexemes]
      exact ⟨houtcome, htap, hheard⟩
  | error halt =>
      rw [hout] at houtcome htap
      rw [Cursor.read_of_error (hlexemes ▸ hout), hlexemes]
      exact ⟨houtcome, htap, hheard⟩

theorem read_of_found {e : Expr} {pl : Descent.Place}
    (h : (Descent.expr r.source room).scan ⟨r.pos, r.memory.reset⟩ = .ok (e, pl)) :
    r.read room = (.ok e, { r with pos := pl.pos, memory := pl.memory }) := by
  simp only [read, h]

theorem read_of_stopped {stop : Option ReadFault × Descent.Memory}
    (h : (Descent.expr r.source room).scan ⟨r.pos, r.memory.reset⟩ = .error stop) :
    r.read room = (.error (stop.1.getD (stop.2.record.fault r.source r.pos)),
      { r with memory := stop.2 }) := by
  obtain ⟨_ | fault, m⟩ := stop
  · simp only [read, h, Option.getD_none]
  · simp only [read, h, Option.getD_some]

open Descent in
/-- To read by descent is to read at the cursor, on every text and from every position, past the end
too. What the memory holds from before is not to be seen in it. -/
theorem read_echoes (room : Nat) (r : Reader) :
    r.Echoes (r.read room) (r.toCursor.read room).1 ⟨(r.toCursor.read room).2, r.live⟩ := by
  have hfinds := finds_expr r.source room r.pos r.memory
  cases hscan : (expr r.source room).scan ⟨r.pos, r.memory.reset⟩ with
  | ok found =>
      obtain ⟨e, pl⟩ := found
      rw [hscan] at hfinds
      obtain ⟨-, -, -, taken, hsplit, hpath, hheard⟩ := hfinds
      obtain ⟨p, -, -, hend⟩ := expr_eq_ok hscan
      have hpos : Reading.position r.source.length (ahead r.source pl.pos) = pl.pos := by
        rw [position_ahead, hend, skip_skip]
      have hdone := Reading.one_of_path_done hpath (ahead r.source pl.pos)
      rw [← hsplit] at hdone
      rw [read_of_found hscan]
      refine echoes_of_machine hdone rfl ?_ hheard.of_reset
      simp only [tap, Cursor.moveTo, hpos]
  | error stop =>
      rw [hscan] at hfinds
      obtain ⟨s, pos, hgoes, hhalts⟩ := hfinds
      obtain ⟨names, hone, hheard⟩ := hgoes.one_eq
      obtain ⟨halt, hhalt, hfault⟩ := hhalts.exists_halt hgoes.1
      rw [hhalt] at hone
      rw [read_of_stopped hscan]
      refine echoes_of_machine hone (congrArg Except.error hfault.symm) rfl ?_
      rw [Reading.Result.after, List.append_nil]
      exact hheard.of_reset

open Descent in
/-- What the descent finds is what the cursor reads, with any memory: a cursor that fails where
something was not found is where the descent finds nothing. -/
theorem found_expr (source : List Char) (room pos : Nat) (m : Memory) :
    found ((expr source room).scan ⟨pos, m⟩) =
      ((Cursor.readOne room ⟨source, pos⟩).map fun r => (r.1, r.2.pos)).mapError lasting := by
  have hfinds := finds_expr source room pos m
  obtain ⟨houtcome, htap, -⟩ := read_echoes room ⟨⟨source, pos⟩, false, m⟩
  have hcursor : (read room ⟨⟨source, pos⟩, false, m⟩).2.toCursor =
      (Cursor.read room ⟨source, pos⟩).2 := congrArg Tap.cursor htap
  rw [oblivious_expr source room pos m m.reset, Cursor.readOne, ← houtcome, ← hcursor]
  cases hscan : (expr source room).scan ⟨pos, m.reset⟩ with
  | ok r =>
      simp only [read, hscan]
      rfl
  | error stop =>
      rw [hscan] at hfinds
      obtain ⟨s, q, -, hhalts⟩ := hfinds
      obtain ⟨_ | fault, m'⟩ := stop
      · simp only [read, hscan]
        rfl
      · obtain ⟨halt, -, -, hlasting⟩ := hhalts
        simp only [read, hscan]
        exact congrArg Except.error hlasting.symm

/-! ### Requests -/

theorem next_echoes (room : Nat) (r : Reader) :
    r.Echoes (r.next room) (r.toCursor.next room).1 ⟨(r.toCursor.next room).2, r.live⟩ := by
  have hskip : r.toCursor.skipBlanks = ⟨r.source, Descent.skip r.source r.pos⟩ :=
    Descent.skipBlanks_eq r.source r.pos
  simp only [next, Cursor.next, hskip, Cursor.atEnd, decide_eq_true_eq]
  split
  · exact ⟨rfl, rfl, Descent.Memory.heard_nil _⟩
  · obtain ⟨houtcome, htap, hheard⟩ :=
      read_echoes room { r with pos := Descent.skip r.source r.pos }
    exact ⟨congrArg (Except.map some) houtcome, htap, hheard⟩

theorem advance_echoes (room : Nat) (r : Reader) :
    r.Echoes (r.advance room) (r.tap.advance room).1 (r.tap.advance room).2 := by
  by_cases hlive : r.live
  · obtain ⟨houtcome, htap, hheard⟩ := next_echoes room r
    have hcursor : (r.next room).2.toCursor = (r.toCursor.next room).2 := congrArg Tap.cursor htap
    simp only [advance, Tap.advance, tap, hlive, if_true]
    exact ⟨houtcome, congr (congrArg Tap.mk hcursor) (congrArg Tap.goesOn houtcome), hheard⟩
  · simp only [advance, Tap.advance, tap, hlive]
    exact ⟨rfl, by simp [tap, hlive], Descent.Memory.heard_nil _⟩

/-- One request to a reader is one to a tap. -/
theorem serve_echoes (room : Nat) (r : Reader) (request : Tap.Request) :
    r.Echoes (r.serve room request) (r.tap.serve room request).1 (r.tap.serve room request).2 := by
  cases request with
  | read =>
      obtain ⟨houtcome, htap, hheard⟩ := read_echoes room r
      exact ⟨congrArg (Except.map some) houtcome, htap, hheard⟩
  | next => exact next_echoes room r
  | stream => exact ⟨rfl, rfl, Descent.Memory.heard_nil _⟩
  | advance => exact advance_echoes room r
  | seek pos => exact ⟨rfl, rfl, Descent.Memory.heard_nil _⟩

theorem serveAll_echoes (room : Nat) (r : Reader) (requests : List Tap.Request) :
    (r.serveAll room requests).1 =
        (r.tap.serveAll room requests).1.map Source.Reply.outcome ∧
      (r.serveAll room requests).2.tap = (r.tap.serveAll room requests).2 ∧
      r.memory.Heard ((r.tap.serveAll room requests).1.flatMap Source.Reply.names)
        (r.serveAll room requests).2.memory := by
  induction requests generalizing r with
  | nil => exact ⟨rfl, rfl, Descent.Memory.heard_nil _⟩
  | cons request requests ih =>
      obtain ⟨houtcome, htap, hheard⟩ := serve_echoes room r request
      obtain ⟨hrest, hlast, hheard'⟩ := ih (r.serve room request).2
      rw [htap] at hrest hlast hheard'
      refine ⟨?_, ?_, hheard.trans hheard'⟩
      · simp only [serveAll, Tap.serveAll, List.map_cons, houtcome, hrest]
      · exact hlast

theorem drainUpTo_echoes (room count : Nat) (r : Reader) :
    r.Echoes (r.drainUpTo room count) (r.tap.drainUpTo room count).1
      (r.tap.drainUpTo room count).2 := by
  induction count generalizing r with
  | zero => exact ⟨rfl, rfl, Descent.Memory.heard_nil _⟩
  | succ count ih =>
      obtain ⟨houtcome, htap, hheard⟩ := advance_echoes room r
      simp only [drainUpTo, Tap.drainUpTo, houtcome]
      cases (r.tap.advance room).1.outcome with
      | error fault => exact ⟨rfl, htap, hheard⟩
      | ok e? =>
          cases e? with
          | none => exact ⟨rfl, htap, hheard⟩
          | some e =>
              obtain ⟨hrest, hlast, hheard'⟩ := ih (r.advance room).2
              rw [htap] at hrest hlast hheard'
              exact ⟨congrArg (Except.map (e :: ·)) hrest, hlast, hheard.trans hheard'⟩

/-! ### Whole texts -/

/-- To read a text to its end with a reader gives what there is to read in it, or the fault, and the
reader has entered the names into the table while it read. -/
theorem all_eq (room : Nat) (source : List Char) (T : Spellings) :
    (all room source T).1 = (Source.all room source).outcome ∧
      (all room source T).2.memory.table = T.recordAll (Source.all room source).names := by
  obtain ⟨houtcome, -, hheard⟩ :=
    drainUpTo_echoes room (source.length + 1) { of source T with live := true }
  have hdrain : (Tap.drainUpTo room (source.length + 1) ⟨⟨source, 0⟩, true⟩).1 =
      Source.all room source :=
    Tap.drainUpTo_eq (c := ⟨source, 0⟩) (Nat.zero_le _) (by simp)
  rw [← hdrain]
  exact ⟨houtcome, hheard.table⟩

end Reader

end SproutLang
