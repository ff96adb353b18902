import LiveForm.Proofs.Ledger

/-!
# What a form has told on a course

* `Log.failures`, `Log.stops`: the failures that messages have brought, and the attempts that invalid
  fields have stopped, the last one first;
* `Course.ledger`: what a form has told is what the log tells of them;
* `Course.results`: what the load brings is handled once at most.
-/

set_option autoImplicit false

namespace LiveForm

def LoadOutcome.result? : LoadOutcome → Option (Except String Json)
  | .values v => some (.ok v)
  | .fails message => some (.error message)
  | .panics => none

namespace FormConfig

/-- What the load of default values brings. A loader that panics brings nothing. -/
def result? (c : FormConfig) : Option (Except String Json) :=
  match c.defaults with
  | .given _ => none
  | .loaded _ outcome => outcome.result?

def loads (c : FormConfig) : Bool :=
  match c.defaults with
  | .given _ => false
  | .loaded _ _ => true

end FormConfig

namespace Moment

/-- The failure that a deed makes known to the form. -/
def failure? (m : Moment) (d : Deed) : Option Failure :=
  match m.act d with
  | .handles message => m.form.failure? message
  | _ => none

/-- The attempt that a deed makes. -/
def attempt? (m : Moment) : Deed → Option Attempt
  | .handle =>
    match m.form.mailbox with
    | [] => none
    | message :: rest =>
      (m.scene.update fun f => { f with mailbox := rest }).attempt? m.now message
  | _ => none

/-- The attempt that a deed makes in vain. -/
def stop? (m : Moment) (d : Deed) : Option Attempt :=
  (m.attempt? d).filter fun x => !x.errors.isEmpty

/-- What the load has brought, when the form hears of it. -/
def result? (m : Moment) (d : Deed) : Option (Except String Json) :=
  match m.act d with
  | .handles message => message.result?
  | _ => none

end Moment

namespace Log

def failures (log : Log) : List Failure := log.filterMap fun x => x.1.failure? x.2

def stops (log : Log) : List Attempt := log.filterMap fun x => x.1.stop? x.2

def results (log : Log) : List (Except String Json) := log.filterMap fun x => x.1.result? x.2

variable {x : Moment × Deed} {log : Log}

theorem failures_cons : failures (x :: log) = (x.1.failure? x.2).toList ++ log.failures := by
  rw [failures, List.filterMap_cons]
  cases x.1.failure? x.2 <;> rfl

theorem stops_cons : stops (x :: log) = (x.1.stop? x.2).toList ++ log.stops := by
  rw [stops, List.filterMap_cons]
  cases x.1.stop? x.2 <;> rfl

theorem results_cons : results (x :: log) = (x.1.result? x.2).toList ++ log.results := by
  rw [results, List.filterMap_cons]
  cases x.1.result? x.2 <;> rfl

end Log

/-! ## Deeds -/

section

variable {a b m : Moment} {d : Deed} {log : Log}

theorem Scene.close_ledger (s : Scene) :
    s.close.form.ledger = { s.form.ledger with load := none } := by
  unfold close update
  simp only [releaseToken_form]
  rfl

theorem Scene.land_ledger (t : Turn) :
    t.land.form.ledger = { t.scene.form.ledger with load := t.land.form.load } := by
  cases t with
  | goesOn s => rfl
  | falls s => exact s.close_ledger

theorem Moment.attempt?_of_mailbox {message : Message} {rest : List Message}
    (mailbox : a.form.mailbox = message :: rest) :
    a.attempt? .handle =
      (a.scene.update fun f => { f with mailbox := rest }).attempt? a.now message := by
  simp only [attempt?, mailbox]

/-- What stops the attempts of a deed is what is wrong with those it makes in vain. -/
theorem Moment.stop?_errors (a : Moment) (d : Deed) :
    (a.stop? d).map Attempt.errors = (a.attempt? d).bind Attempt.stop? := by
  unfold stop?
  cases a.attempt? d with
  | none => rfl
  | some x => cases none : x.errors.isEmpty <;> simp [Option.filter, Attempt.stop?, none]

/-- Nothing is told but by messages. -/
theorem Moment.perform?_untold (h : a.perform? d = some b) (handling : d ≠ .handle) :
    b.form.ledger = { a.form.ledger with load := b.form.load } := by
  have posted (f : Form) (m : Message) (same : f.ledger = { a.form.ledger with load := f.load }) :
      (f.post m).ledger = { a.form.ledger with load := (f.post m).load } := by
    have load : (f.post m).load = f.load := congrArg Ledger.load (Scene.post_ledger f m)
    rw [Scene.post_ledger, same, load]
  cases d with
  | handle => exact absurd rfl handling
  | close =>
    simp only [perform?, Option.ite_none_right_eq_some, Option.some.injEq] at h
    obtain ⟨_, rfl⟩ := h
    exact a.scene.close_ledger
  | pass | stop | share =>
    cases h
    rfl
  | change =>
    cases h
    exact posted a.form _ rfl
  | ask | straggle =>
    simp only [perform?, Option.ite_none_right_eq_some, Option.some.injEq] at h
    obtain ⟨_, rfl⟩ := h
    exact posted a.form _ rfl
  | startCall | endCall =>
    simp only [perform?, Scene.startCall?, Scene.endCallAt?, Option.map_eq_some_iff] at h
    obtain ⟨_, ⟨c, _, rfl⟩, rfl⟩ := h
    rfl
  | finishRun run =>
    simp only [perform?, Scene.finishRunAt?, Option.map_eq_some_iff] at h
    obtain ⟨_, ⟨r, _, rfl⟩, rfl⟩ := h
    exact posted { a.form with runs := a.form.runs.eraseIdx run } _ rfl
  | fireDebounce =>
    simp only [perform?, Scene.fireDebounce?, Option.map_eq_some_iff] at h
    obtain ⟨_, ⟨t, _, rfl⟩, rfl⟩ := h
    exact posted { a.form with debounce := { a.form.debounce with timer := none } } _ rfl
  | fireHide =>
    simp only [perform?, Scene.fireHide?, Option.map_eq_some_iff] at h
    obtain ⟨_, ⟨t, _, rfl⟩, rfl⟩ := h
    exact posted { a.form with loader := { a.form.loader with hideTimer := none } } _ rfl
  | finishLoad =>
    simp only [perform?, Scene.finishLoad?, Option.map_eq_some_iff] at h
    obtain ⟨_, ⟨l, _, rfl⟩, rfl⟩ := h
    cases l.outcome with
    | panics => rfl
    | values | fails => exact posted { a.form with load := none } _ rfl

/-- A deed adds the failure and the stop that it brings. -/
theorem Moment.perform?_ledger (h : a.perform? d = some b) :
    b.form.ledger =
      { ({ a.form.ledger with loading := a.form.isLoading && (a.result? d).isNone }.fail
          (a.failure? d)).stop ((a.stop? d).map Attempt.errors) with load := b.form.load } := by
  by_cases handling : d = .handle
  · subst handling
    obtain ⟨message, rest, mailbox, rfl⟩ := handle_eq_some h
    have head : a.act .handle = .handles message := by simp [act, mailbox]
    have added := Scene.handle_ledger (a.scene.update fun f => { f with mailbox := rest }) a.now message
    refine (Scene.land_ledger _).trans ?_
    rw [added, stop?_errors, attempt?_of_mailbox mailbox, failure?, result?, head]
    rfl
  · have quiet : a.failure? d = none ∧ a.result? d = none ∧ a.stop? d = none := by
      cases d <;> first | exact ⟨rfl, rfl, rfl⟩ | exact absurd rfl handling
    obtain ⟨failure, result, stop⟩ := quiet
    rw [failure, result, stop, perform?_untold h handling]
    simp [Form.ledger]

end

/-! ## What is still to be heard of the load -/

/-- Handling a message puts no more into the mailbox than the notice of a wait that is over. -/
theorem Coordinator.Handles.mailbox {now : Nat} {c c' : Coordinator} {m : Message}
    (h : c.Handles now m c') :
    ∃ notice : Option Nat, c'.mailbox = c.mailbox ++ (notice.map .debounceElapsed).toList := by
  cases h with
  | submitNow _ next | elapsedNow _ _ next | settledNext _ _ next =>
    exact ⟨none, next.waits.2.1.trans (List.append_nil _).symm⟩
  | changed | written =>
    show ∃ notice : Option Nat, (c.request now).mailbox = _
    unfold request
    dsimp only
    split
    · unfold post
      split
      · exact ⟨some _, rfl⟩
      · exact ⟨none, (List.append_nil _).symm⟩
    · exact ⟨none, (List.append_nil _).symm⟩
  | _ => exact ⟨none, (List.append_nil _).symm⟩

/-- What the form will hear of the load. -/
def Form.resultsAhead (f : Form) : List (Except String Json) :=
  f.mailbox.filterMap Message.result? ++ (f.load.bind fun l => l.outcome.result?).toList

section

variable {a b : Moment} {d : Deed}

theorem Form.post_resultsAhead (f : Form) {m : Message} (aside : m.result? = none) :
    (f.post m).resultsAhead = f.resultsAhead := by
  unfold Form.post
  split
  · simp [resultsAhead, aside]
  · rfl

theorem Moment.handle_resultsAhead (h : a.perform? .handle = some b) (alive : b.form.alive = true) :
    ((a.result? .handle).toList ++ b.form.resultsAhead).Perm a.form.resultsAhead := by
  obtain ⟨m, rest, mailbox, rfl⟩ := handle_eq_some h
  have head : a.act .handle = .handles m := by simp [act, mailbox]
  obtain ⟨s, turn⟩ : ∃ s, (a.scene.update fun f => { f with mailbox := rest }).handle a.now m =
      .goesOn s := ⟨_, land_alive alive⟩
  have ends := Scene.handle_ends (a.scene.update fun f => { f with mailbox := rest }) a.now m
  have told := Scene.handle_ledger (a.scene.update fun f => { f with mailbox := rest }) a.now m
  rw [turn] at told
  have load : s.form.load = a.form.load := congrArg Ledger.load told
  obtain ⟨notice, noticed⟩ := (ends.goes s turn).mailbox
  have noticed : s.form.mailbox = rest ++ (notice.map .debounceElapsed).toList := noticed
  have quiet : (notice.map Message.debounceElapsed).toList.filterMap Message.result? = [] := by
    cases notice <;> rfl
  rw [turn, result?, head]
  show (m.result?.toList ++ s.form.resultsAhead).Perm _
  unfold Form.resultsAhead
  rw [load, noticed, List.filterMap_append, quiet, List.append_nil, mailbox, ← List.append_assoc]
  cases m <;> exact .refl _

/-- What a form hears of the load it does not hear again. -/
theorem Moment.perform?_resultsAhead (h : a.perform? d = some b) (alive : b.form.alive = true) :
    ((a.result? d).toList ++ b.form.resultsAhead).Perm a.form.resultsAhead := by
  cases d with
  | handle => exact handle_resultsAhead h alive
  | close =>
    simp only [perform?, Option.ite_none_right_eq_some, Option.some.injEq] at h
    obtain ⟨_, rfl⟩ := h
    cases alive
  | pass | stop | share =>
    cases h
    exact .refl _
  | change =>
    cases h
    exact .of_eq (Form.post_resultsAhead a.form rfl)
  | ask =>
    simp only [perform?, Option.ite_none_right_eq_some, Option.some.injEq] at h
    obtain ⟨_, rfl⟩ := h
    exact .of_eq (Form.post_resultsAhead a.form rfl)
  | straggle notice =>
    simp only [perform?, Option.ite_none_right_eq_some, Option.some.injEq] at h
    obtain ⟨off, rfl⟩ := h
    refine .of_eq (Form.post_resultsAhead a.form ?_)
    cases notice <;> first | rfl | simp [Form.hasCalledOff] at off
  | startCall | endCall =>
    simp only [perform?, Scene.startCall?, Scene.endCallAt?, Option.map_eq_some_iff] at h
    obtain ⟨_, ⟨c, _, rfl⟩, rfl⟩ := h
    exact .refl _
  | finishRun run =>
    simp only [perform?, Scene.finishRunAt?, Option.map_eq_some_iff] at h
    obtain ⟨_, ⟨r, _, rfl⟩, rfl⟩ := h
    exact .of_eq (Form.post_resultsAhead { a.form with runs := a.form.runs.eraseIdx run } rfl)
  | fireDebounce =>
    simp only [perform?, Scene.fireDebounce?, Option.map_eq_some_iff] at h
    obtain ⟨_, ⟨t, _, rfl⟩, rfl⟩ := h
    exact .of_eq (Form.post_resultsAhead
      { a.form with debounce := { a.form.debounce with timer := none } } rfl)
  | fireHide =>
    simp only [perform?, Scene.fireHide?, Option.map_eq_some_iff] at h
    obtain ⟨_, ⟨t, _, rfl⟩, rfl⟩ := h
    exact .of_eq (Form.post_resultsAhead
      { a.form with loader := { a.form.loader with hideTimer := none } } rfl)
  | finishLoad =>
    have living := perform?_alive h alive
    simp only [perform?, Scene.finishLoad?, Option.map_eq_some_iff, Option.filter_eq_some_iff] at h
    obtain ⟨_, ⟨l, ⟨load, _⟩, rfl⟩, rfl⟩ := h
    have load : a.form.load = some l := load
    refine .of_eq ?_
    unfold Form.resultsAhead
    cases outcome : l.outcome <;>
      simp [Scene.loadMessage?, Scene.update, result?, act, Form.post, living, load, outcome,
        Message.result?, LoadOutcome.result?]

/-- What a form hears of the load was to be heard. -/
theorem Moment.result?_ahead (a : Moment) (d : Deed) :
    ∃ rest, a.form.resultsAhead = (a.result? d).toList ++ rest := by
  cases result : a.result? d with
  | none => exact ⟨_, rfl⟩
  | some r =>
    unfold Moment.result? at result
    split at result
    · rename_i m handles
      obtain ⟨rest, mailbox, -⟩ := perform?_of_handles handles
      refine ⟨rest.filterMap Message.result? ++
        (a.form.load.bind fun l => l.outcome.result?).toList, ?_⟩
      simp [Form.resultsAhead, mailbox, result]
    · cases result

theorem Moment.opening_resultsAhead (c : FormConfig) (now : Nat) (guard : UnloadGuard)
    (alive : (Moment.opening c now guard).form.alive = true) :
    (Moment.opening c now guard).form.resultsAhead = c.result?.toList := by
  have ends := Scene.publishCurrent_ends ⟨Form.make c now, guard⟩
  have silent := Scene.publishCurrent_silent ⟨Form.make c now, guard⟩
  have turn : Scene.publishCurrent ⟨Form.make c now, guard⟩ =
      .goesOn (Moment.opening c now guard).scene := land_alive alive
  rw [turn] at silent
  have mailbox : (Moment.opening c now guard).form.mailbox = [] :=
    congrArg Coordinator.mailbox (ends.goes _ turn)
  have load : (Moment.opening c now guard).form.load = (Form.make c now).load :=
    congrArg Ledger.load silent
  unfold Form.resultsAhead FormConfig.result?
  rw [mailbox, load, Form.make]
  cases c.defaults <;> rfl

/-- All that the load brings is heard, or still to be heard by a form that lives, and nothing is
heard twice. -/
theorem Course.results {c : FormConfig} {now : Nat} {guard : UnloadGuard} {m : Moment} {log : Log}
    (course : Course (.opening c now guard) log m) :
    ∃ rest, log.results ++ rest = c.result?.toList ∧
      (m.form.alive = true → rest = m.form.resultsAhead) := by
  induction course with
  | here =>
    refine ⟨c.result?.toList, rfl, fun alive => ?_⟩
    exact (Moment.opening_resultsAhead c now guard alive).symm
  | @next log a b d before done ih =>
    obtain ⟨rest, all, ahead⟩ := ih
    rw [Log.results_cons]
    cases alive : b.form.alive with
    | true =>
      have news := Moment.perform?_resultsAhead done alive
      rw [← ahead (Moment.perform?_alive done alive)] at news
      refine ⟨b.form.resultsAhead, Coordinator.singleton_of_perm (all ▸ ?_), fun _ => rfl⟩
      rw [List.append_assoc]
      exact (List.perm_append_comm_assoc _ _ _).trans (news.append_left _)
    | false =>
      cases result : a.result? d with
      | none => exact ⟨rest, all, nofun⟩
      | some r =>
        -- Only a form that lives hears of anything.
        have living : a.form.alive = true := by
          unfold Moment.result? at result
          split at result
          · rename_i m handles
            exact Moment.alive_of_handles (one_flight before) handles
          · cases result
        obtain ⟨rest', first⟩ := a.result?_ahead d
        rw [← ahead living, result] at first
        refine ⟨rest', Coordinator.singleton_of_perm (all ▸ first ▸ ?_), nofun⟩
        rw [List.append_assoc]
        exact List.perm_append_comm_assoc _ _ _

/-- The error a load has ended with. -/
def loadError? : Except String Json → Option String
  | .error message => some message
  | .ok _ => none

/-- The error that the load of default values ends with. -/
def FormConfig.loadError? (c : FormConfig) : Option String := c.result?.bind LiveForm.loadError?

/-- The failures of the load are the errors it has brought. -/
theorem Log.failures_load (log : Log) :
    log.failures.filterMap Failure.load? = log.results.filterMap loadError? := by
  unfold Log.failures Log.results
  rw [List.filterMap_filterMap, List.filterMap_filterMap]
  apply List.filterMap_congr
  intro x _
  unfold Moment.failure? Moment.result?
  cases x.1.act x.2 with
  | asks | other => rfl
  | handles m =>
    cases m with
    | settled cycle failure =>
      cases failure with
      | none => rfl
      | some e =>
        dsimp only [Form.failure?]
        split <;> rfl
    | loaded outcome => cases outcome <;> rfl
    | _ => rfl

end

/-! ## Courses -/

section

variable {c : FormConfig} {now : Nat} {guard : UnloadGuard} {m : Moment} {log : Log}

theorem Moment.opening_ledger (c : FormConfig) (now : Nat) (guard : UnloadGuard) :
    (Moment.opening c now guard).form.ledger =
      { (Form.make c now).ledger with load := (Moment.opening c now guard).form.load } := by
  have silent := Scene.publishCurrent_silent ⟨Form.make c now, guard⟩
  refine (Scene.land_ledger _).trans ?_
  rw [silent]
  rfl

/-- What a form has told is what the log tells of failures and stops. -/
theorem Course.ledger (course : Course (.opening c now guard) log m) :
    m.form.ledger =
      { catalog := c.catalog
        listens := c.onInvalid.isSome
        loading := c.loads && log.results.isEmpty
        load := m.form.load
        notices := log.failures.map (Failure.notice c.catalog)
        complaints := if c.onInvalid.isSome then log.stops.map Attempt.errors else []
        failed := log.failures.filterMap Failure.submission? } := by
  induction course with
  | here =>
    rw [Moment.opening_ledger]
    unfold FormConfig.loads Form.ledger Form.make
    cases c.defaults <;> simp [Log.results, Log.failures, Log.stops, Form.notices, Form.complaints,
      Form.failedCycles]
  | @next log a b d before done ih =>
    have loading : a.form.isLoading = (c.loads && log.results.isEmpty) :=
      congrArg Ledger.loading ih
    rw [Moment.perform?_ledger done, ih, loading, Log.failures_cons, Log.stops_cons,
      Log.results_cons]
    simp only [Ledger.fail, Ledger.stop, Ledger.mk.injEq, true_and, List.map_append,
      List.filterMap_append]
    refine ⟨?_, ?_, ?_, ?_⟩
    · cases a.result? d <;> simp
    · cases a.failure? d <;> rfl
    · cases c.onInvalid.isSome <;> cases a.stop? d <;> rfl
    · cases failure : a.failure? d with
      | none => rfl
      | some e => cases e <;> rfl

end

end LiveForm
