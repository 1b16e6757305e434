import SproutLang.Proofs.Agreement
import SproutLang.Proofs.Limits

/-!
The table of spellings is for show. What a session reads, what its texts come to, what it binds and
what it logs are the same whichever table it starts with and however many entries that can hold; a
table that has lost a name changes how the name is shown and nothing else.

Two sessions are compared that differ in their tables only. One text leaves two such sessions again,
and enters the same names into both tables: those that were read in it, whatever its evaluation then
comes to. All else follows from that by induction over the texts.

A reader has the table at hand while it reads and enters the names as it meets them. That it makes
nothing else of the table is a result about the descent; the names that it enters are those of the
text.
-/

namespace SproutLang

/-! ### What is shown -/

section Shown

variable {spell spell' : Key → String}

mutual

theorem Value.render_congr (v : Value) (h : ∀ k ∈ v.keys, spell k = spell' k) :
    v.render spell = v.render spell' := by
  match v with
  | .function params body =>
      rw [Value.keys, List.forall_mem_append] at h
      have hparams : params.map spell = params.map spell' := List.map_congr_left h.1
      rw [Value.render, Value.render, hparams, Expr.renderEach_congr body h.2]
  | .void | .falsity | .int _ | .native _ _ | .bool _ | .text _ | .absent | .list _ =>
      simp only [Value.render]

theorem Expr.render_congr (e : Expr) (h : ∀ k ∈ e.keys, spell k = spell' k) :
    e.render spell = e.render spell' := by
  match e with
  | .literal v =>
      rw [Expr.render, Expr.render, Value.render_congr v h]
  | .ref k =>
      rw [Expr.render, Expr.render, h k List.mem_cons_self]
  | .define k value =>
      rw [Expr.keys, List.forall_mem_cons] at h
      rw [Expr.render, Expr.render, h.1, Expr.render_congr value h.2]
  | .call callee args =>
      rw [Expr.keys, List.forall_mem_append] at h
      rw [Expr.render, Expr.render, Expr.render_congr callee h.1, Expr.renderEach_congr args h.2]
  | .stray v => rw [Expr.render, Expr.render]

theorem Expr.renderEach_congr (es : List Expr) (h : ∀ k ∈ Expr.keysOf es, spell k = spell' k) :
    Expr.renderEach spell es = Expr.renderEach spell' es := by
  match es with
  | [] => rw [Expr.renderEach, Expr.renderEach]
  | e :: es =>
      rw [Expr.keysOf, List.forall_mem_append] at h
      rw [Expr.renderEach, Expr.renderEach, Expr.render_congr e h.1, Expr.renderEach_congr es h.2]

end

/-- The keys of the names in the text of a scope, in order. -/
def Scope.shownKeys (s : Scope) : List Key :=
  s.bindings.flatMap fun b => b.1 :: b.2.keys

theorem Scope.render_congr (s : Scope) (h : ∀ k ∈ s.shownKeys, spell k = spell' k) :
    s.render spell = s.render spell' := by
  have hbindings : (s.bindings.map fun b => spell b.1 ++ ": " ++ b.2.render spell) =
      s.bindings.map fun b => spell' b.1 ++ ": " ++ b.2.render spell' := by
    apply List.map_congr_left
    intro b hb
    have hkeys : ∀ k ∈ b.1 :: b.2.keys, spell k = spell' k :=
      fun k hk => h k (List.mem_flatMap.mpr ⟨b, hb, hk⟩)
    rw [List.forall_mem_cons] at hkeys
    rw [hkeys.1, Value.render_congr b.2 hkeys.2]
  rw [Scope.render, Scope.render, hbindings]

def Failure.shownKeys : Failure → List Key
  | .unbound k => [k]
  | .notCallable v => v.keys
  | _ => []

theorem Failure.message_congr (f : Failure) (h : ∀ k ∈ f.shownKeys, spell k = spell' k) :
    f.message spell = f.message spell' := by
  cases f with
  | unbound k =>
      have hk : spell k = spell' k := h k (by simp [shownKeys])
      exact congrArg ("Variable does not exist: " ++ ·) hk
  | notCallable v =>
      have hv : v.render spell = v.render spell' := Value.render_congr v h
      exact congrArg ("Attempted to call a non-function: " ++ ·) hv
  | _ => rfl

end Shown

/-! ### Sessions that differ in their tables -/

namespace Session

variable {σ : Type} {host : Host σ} {limits : Limits}

def withSpellings (T : Spellings) (s : Session σ) : Session σ :=
  { s with spellings := T }

def namesIn (limits : Limits) (text : List Char) : List String :=
  (Source.all limits.room text).names

theorem spellings_run (s : Session σ) (text : List Char) :
    (s.run host limits text).session.spellings = s.spellings.recordAll (namesIn limits text) := by
  cases hread : (Source.all limits.room text).outcome with
  | error fault =>
      rw [run_of_fault s hread]
      rfl
  | ok exprs =>
      rw [run_of_exprs s hread]
      rfl

/-- Another table changes nothing in a step but the table that it leaves. -/
theorem run_withSpellings (T : Spellings) (s : Session σ) (text : List Char) :
    (s.withSpellings T).run host limits text =
      let r := s.run host limits text
      ⟨r.outcome, r.session.withSpellings (T.recordAll (namesIn limits text)), r.log⟩ := by
  cases hread : (Source.all limits.room text).outcome with
  | error fault =>
      rw [run_of_fault s hread, run_of_fault _ hread]
      rfl
  | ok exprs =>
      rw [run_of_exprs s hread, run_of_exprs _ hread]
      rfl

theorem respond_withSpellings (T : Spellings) (s : Session σ) (call : Call) :
    (s.withSpellings T).respond host limits call =
      let r := s.respond host limits call
      ⟨r.outcome, r.session.withSpellings (T.recordAll (namesIn limits call.text)), r.log⟩ := by
  rw [respond_eq, respond_eq, run_withSpellings]
  rfl

theorem bindNames_withSpellings (T : Spellings) (s : Session σ) (items : List (String × Value)) :
    (s.withSpellings T).bindNames items =
      (s.bindNames items).withSpellings (T.recordAll (items.map Prod.fst)) := by
  induction items generalizing s T with
  | nil => rfl
  | cons item items ih => exact ih (T.record item.1) (s.bindName item.1 item.2)

def boundNames (natives : Bool) : List String :=
  if natives then Native.standard.map Prod.fst else []

theorem begin_eq_withSpellings (T U : Spellings) (world : σ) (natives : Bool) :
    begin T world natives =
      (begin U world natives).withSpellings (T.recordAll (boundNames natives)) := by
  cases natives with
  | false => rfl
  | true => exact bindNames_withSpellings T ⟨.empty, U, world⟩ Native.standard

/-! ### Transcripts -/

/-- All that is to be seen of a call, the table of spellings left out: what was read of its text,
what it came to, the bindings and the world that it left, and the notices that it wrote. -/
structure Entry (σ : Type) where
  read : Except ReadFault (List Expr)
  answer : Except Trouble (Option Value)
  scope : Scope
  world : σ
  log : List Notice

def entry (host : Host σ) (limits : Limits) (s : Session σ) (call : Call) : Entry σ :=
  let r := s.respond host limits call
  ⟨(Source.all limits.room call.text).outcome, r.outcome, r.session.scope, r.session.world, r.log⟩

def transcript (host : Host σ) (limits : Limits) : Session σ → List Call → List (Entry σ)
  | _, [] => []
  | s, call :: calls =>
      s.entry host limits call ::
        transcript host limits (s.respond host limits call).session calls

theorem transcript_withSpellings (T : Spellings) (s : Session σ) (calls : List Call) :
    (s.withSpellings T).transcript host limits calls = s.transcript host limits calls := by
  induction calls generalizing s T with
  | nil => rfl
  | cons call calls ih =>
      rw [transcript, transcript, entry, entry, respond_withSpellings]
      exact congrArg _ (ih _ _)

theorem spellings_foldl_after (s : Session σ) (calls : List Call) :
    (calls.foldl (after host limits) s).spellings =
      s.spellings.recordAll (calls.flatMap fun call => namesIn limits call.text) := by
  induction calls generalizing s with
  | nil => rfl
  | cons call calls ih =>
      rw [List.foldl_cons, ih, after_eq, spellings_run, List.flatMap_cons,
        Spellings.recordAll_append]

/-- Two sessions of the same calls, with whatever tables they start, read the same expressions, give
the same answers, with the same faults and failures at the same calls, and leave the same bindings,
worlds and logs after each. Their tables are those they started with and the names that were bound
or read since, as the reader of each text entered them while it read; no evaluation enters any. And
a table enters into what is shown of a value, a scope or a failure only through the spellings of the
names there; in the wording of a fault there are none. -/
theorem spellings_only_shown {α : Type} (host : Host σ) (limits : Limits) (world : σ)
    (natives : Bool) (opening : List Char) (calls : List Call) (T U : Spellings) :
    let start := fun T => beginWith host limits T world natives opening
    (start T).outcome = (start U).outcome ∧
    (start T).session.scope = (start U).session.scope ∧
    (start T).session.world = (start U).session.world ∧
    (start T).log = (start U).log ∧
    (start T).session.transcript host limits calls =
      (start U).session.transcript host limits calls ∧
    (calls.foldl (after host limits) (start T).session).spellings =
      T.recordAll (boundNames natives ++
        (opening :: calls.map Call.text).flatMap (namesIn limits)) ∧
    (∀ (s : Session σ) (text : List Char),
      (Reader.all limits.room text s.spellings).1 = (Source.all limits.room text).outcome ∧
      (s.run host limits text).session.spellings =
        (Reader.all limits.room text s.spellings).2.memory.table) ∧
    (∀ (s : Session σ) (x : Action σ α), (s.act x).session.spellings = s.spellings) ∧
    (∀ v : Value, (∀ k ∈ v.keys, T.spell k = U.spell k) → v.render T.spell = v.render U.spell) ∧
    (∀ s : Scope, (∀ k ∈ s.shownKeys, T.spell k = U.spell k) →
      s.render T.spell = s.render U.spell) ∧
    (∀ f : Failure, (∀ k ∈ f.shownKeys, T.spell k = U.spell k) →
      f.message T.spell = f.message U.spell) := by
  intro start
  have hload : ∀ V, start V = (begin V world natives).load host limits opening :=
    fun V => beginWith_eq_load host limits V world natives opening
  have hstart : start T = ⟨(start U).outcome, (start U).session.withSpellings
      (T.recordAll (boundNames natives ++ namesIn limits opening)), (start U).log⟩ := by
    rw [hload, hload, begin_eq_withSpellings T U, load, load, run_withSpellings,
      Spellings.recordAll_append]
  refine ⟨?_, ?_, ?_, ?_, ?_, ?_, fun s text => ?_, fun s x => rfl, fun v => v.render_congr,
    fun s => s.render_congr, fun f => f.message_congr⟩
  · rw [hstart]
  · rw [hstart, withSpellings]
  · rw [hstart, withSpellings]
  · rw [hstart]
  · rw [hstart, transcript_withSpellings]
  · rw [spellings_foldl_after, hstart, withSpellings, ← Spellings.recordAll_append,
      List.flatMap_cons, List.flatMap_map, List.append_assoc]
  · obtain ⟨houtcome, htable⟩ := Reader.all_eq limits.room text s.spellings
    exact ⟨houtcome, (spellings_run s text).trans htable.symm⟩

end Session

end SproutLang
