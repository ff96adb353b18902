import LiveForm.Proofs.Standing.Handling

/-!
# What a deed does to the standing

Deeds that handle no message only bring notices that the loader may go; `Standing.Drifts` says how.
What the moves and these keep holds on every course, and of a form that has ended it held at the
stage it fell at: this is `Form.Upholds`, proved by `Course.upholds`.
-/

set_option autoImplicit false

namespace LiveForm

/-- Notices reach the mailbox of a form that lives, and the timer of the loader brings its own. -/
inductive Standing.Drifts (alive : Bool) (st : Standing) : Standing → Prop where
  | still : Drifts alive st st
  | told {generation : Nat} (living : alive = true) :
      Drifts alive st { st with notices := st.notices ++ [generation] }
  | fires {t : Timer} (living : alive = true) (timer : st.loader.hideTimer = some t) :
      Drifts alive st { st with
        loader := { st.loader with hideTimer := none }
        notices := st.notices ++ [t.generation] }
  | lost {t : Timer} (dead : alive = false) (timer : st.loader.hideTimer = some t) :
      Drifts alive st { st with loader := { st.loader with hideTimer := none } }

/-- Nothing reaches a form that has ended, and it has no timer. -/
theorem Standing.Drifts.ended {st st' : Standing} (h : st.ended.Drifts false st') :
    st' = st.ended := by
  cases h with
  | still => rfl
  | told living => cases living
  | fires living => cases living
  | lost _ timer => cases timer

theorem Form.post_drifts (f : Form) (m : Message) :
    f.standing.Drifts f.alive (f.post m).standing := by
  cases notice : m.hides? with
  | none =>
    rw [Scene.post_standing f notice]
    exact .still
  | some generation =>
    unfold Form.post
    split
    · rename_i alive
      have told : ({ f with mailbox := f.mailbox ++ [m] } : Form).standing =
          { f.standing with notices := f.standing.notices ++ [generation] } := by
        simp [Form.standing, notice]
      exact told ▸ .told alive
    · exact .still

/-- The timer of the loader brings its notice to a form that lives. -/
theorem Form.fireHide_drifts (f : Form) {t : Timer} (timer : f.loader.hideTimer = some t) :
    f.standing.Drifts f.alive ({ f with loader := { f.loader with hideTimer := none } }.post
      (.hideLoader t.generation)).standing := by
  by_cases alive : f.alive = true
  · have fired : ({ f with loader := { f.loader with hideTimer := none } }.post
        (.hideLoader t.generation)).standing =
          { f.standing with
            loader := { f.loader with hideTimer := none }
            notices := f.standing.notices ++ [t.generation] } := by
      simp [Form.post, alive, Form.standing, Message.hides?]
    exact fired ▸ .fires alive timer
  · have dead : f.alive = false := Bool.eq_false_iff.mpr alive
    have gone : ({ f with loader := { f.loader with hideTimer := none } }.post
        (.hideLoader t.generation)).standing =
          { f.standing with loader := { f.loader with hideTimer := none } } := by
      simp [Form.post, dead, Form.standing]
    exact gone ▸ .lost dead timer

/-- Whether a form lives, and whether a callback has failed. -/
def Form.fate (f : Form) : Bool × Bool := (f.alive, f.failed)

theorem Form.post_fate (f : Form) (m : Message) : (f.post m).fate = f.fate := by
  unfold Form.post
  split <;> rfl

/-- Only messages and the end of the form do more. -/
theorem Moment.perform?_drifts {a b : Moment} {d : Deed} (h : a.perform? d = some b)
    (handling : d ≠ .handle) (closing : d ≠ .close) :
    a.form.standing.Drifts a.form.alive b.form.standing ∧ b.form.fate = a.form.fate := by
  cases d with
  | handle => exact absurd rfl handling
  | close => exact absurd rfl closing
  | pass | stop | share =>
    cases h
    exact ⟨.still, rfl⟩
  | change =>
    cases h
    exact ⟨Form.post_drifts _ _, Form.post_fate _ _⟩
  | ask | straggle =>
    simp only [perform?, Option.ite_none_right_eq_some, Option.some.injEq] at h
    obtain ⟨_, rfl⟩ := h
    exact ⟨Form.post_drifts _ _, Form.post_fate _ _⟩
  | startCall | endCall =>
    simp only [perform?, Scene.startCall?, Scene.endCallAt?, Option.map_eq_some_iff] at h
    obtain ⟨_, ⟨c, _, rfl⟩, rfl⟩ := h
    exact ⟨.still, rfl⟩
  | finishRun run =>
    simp only [perform?, Scene.finishRunAt?, Option.map_eq_some_iff] at h
    obtain ⟨_, ⟨r, _, rfl⟩, rfl⟩ := h
    exact ⟨Form.post_drifts { a.form with runs := a.form.runs.eraseIdx run } _, Form.post_fate _ _⟩
  | fireDebounce =>
    simp only [perform?, Scene.fireDebounce?, Option.map_eq_some_iff] at h
    obtain ⟨_, ⟨t, _, rfl⟩, rfl⟩ := h
    exact ⟨Form.post_drifts { a.form with debounce := { a.form.debounce with timer := none } } _,
      Form.post_fate _ _⟩
  | fireHide =>
    simp only [perform?, Scene.fireHide?, Option.map_eq_some_iff, Option.filter_eq_some_iff] at h
    obtain ⟨_, ⟨t, ⟨timer, _⟩, rfl⟩, rfl⟩ := h
    exact ⟨a.form.fireHide_drifts timer, Form.post_fate _ _⟩
  | finishLoad =>
    simp only [perform?, Scene.finishLoad?, Option.map_eq_some_iff] at h
    obtain ⟨_, ⟨l, _, rfl⟩, rfl⟩ := h
    cases l.outcome with
    | panics => exact ⟨.still, rfl⟩
    | values | fails =>
      exact ⟨Form.post_drifts { a.form with load := none } _, Form.post_fate _ _⟩

namespace Scene

theorem close_standing (s : Scene) : s.close.form.standing = s.form.standing.ended := by
  unfold close update
  simp only [releaseToken_form]
  rfl

/-- However a turn ends, its marks stay, and so do the dirty ones. -/
theorem land_marks (t : Turn) : t.land.form.standing.marks = t.scene.form.standing.marks ∧
    t.land.form.standing.dirty = t.scene.form.standing.dirty := by
  cases t with
  | goesOn s => exact ⟨rfl, rfl⟩
  | falls s =>
    have closed : (Turn.falls s).land.form.standing = s.form.standing.ended := s.close_standing
    rw [closed]
    exact ⟨rfl, rfl⟩

theorem close_failed (s : Scene) : s.close.form.failed = s.form.failed := by
  unfold close update
  simp only [releaseToken_form]
  rfl

end Scene

/-- Something holds of a form that rests, or it held where the form fell. -/
structure Form.Upholds (P : Stage → Standing → Prop) (f : Form) : Prop where
  living : f.alive = true → P .resting f.standing
  fallen : f.alive = false → ∃ last st, P last st ∧ f.standing = st.ended ∧
    (f.failed = true ∨ last.breaks = true)

section

variable {P : Stage → Standing → Prop} {a b m : Moment} {d : Deed} {log : Log}

/-- The end of a form leaves its marks, and what it has published. -/
theorem Form.Upholds.marks {f : Form} (h : f.Upholds P) :
    ∃ stage st, P stage st ∧ f.standing.marks = st.marks ∧ f.published = st.published := by
  cases alive : f.alive with
  | true => exact ⟨.resting, f.standing, h.living alive, rfl, rfl⟩
  | false =>
    obtain ⟨last, st, held, same, -⟩ := h.fallen alive
    have marks : f.standing.marks = st.marks := by rw [same]; rfl
    have published : f.standing.published = st.published := by rw [same]; rfl
    exact ⟨last, st, held, marks, published⟩

/-- A turn from rest upholds what its moves keep. -/
theorem Turn.Passes.upholds {t : Turn} {s : Scene} {st : Standing}
    (passes : t.Passes s (.resting, st) .resting)
    (move : ∀ {x y}, Standing.Move x y → P x.1 x.2 → P y.1 y.2) (first : P .resting st)
    (alive : ∀ s, t = .goesOn s → s.form.alive = true) : t.land.form.Upholds P := by
  cases t with
  | goesOn s =>
    constructor
    · intro _
      exact (passes.goes s rfl).keeps move first
    · intro dead
      rw [Turn.land, alive s rfl] at dead
      cases dead
  | falls s =>
    constructor
    · intro living
      cases living
    · intro _
      obtain ⟨last, path, reason⟩ := passes.falls s rfl
      exact ⟨last, s.form.standing, path.keeps move first, s.close_standing,
        s.close_failed ▸ reason⟩

theorem Form.Upholds.close {s : Scene} (before : s.form.Upholds P) : s.close.form.Upholds P := by
  constructor
  · intro living
    cases living
  · intro _
    cases alive : s.form.alive with
    | true => exact ⟨.resting, s.form.standing, before.living alive, s.close_standing, .inr rfl⟩
    | false =>
      obtain ⟨last, st, held, same, reason⟩ := before.fallen alive
      refine ⟨last, st, held, ?_, s.close_failed ▸ reason⟩
      rw [s.close_standing, same]
      rfl

/-- A message leads from rest to rest, or the form falls on the way. -/
theorem Moment.perform?_passes (h : a.perform? .handle = some b) :
    ∃ message rest s t, a.form.mailbox = message :: rest ∧
      s = a.scene.update (fun f => { f with mailbox := rest }) ∧ t = s.handle a.now message ∧
      b.scene = t.land ∧ t.Passes s (.resting, a.form.standing) .resting ∧
      ∀ s', t = .goesOn s' → s'.form.alive = a.form.alive := by
  obtain ⟨message, rest, mailbox, rfl⟩ := handle_eq_some h
  have passes := (a.scene.update fun f => { f with mailbox := rest }).handle_passes a.now message
  have ends := (a.scene.update fun f => { f with mailbox := rest }).handle_ends a.now message
  refine ⟨message, rest, _, _, mailbox, rfl, rfl, rfl, ?_, fun s turn => (ends.goes s turn).alive⟩
  have notices : a.form.standing.notices =
      message.hides?.toList ++ rest.filterMap Message.hides? := by
    rw [Form.standing, mailbox]
    cases notice : message.hides? <;> simp [notice]
  have whole : a.form.standing = { a.form.standing with
      notices := message.hides?.toList ++ rest.filterMap Message.hides? } := by
    rw [← notices]
  rw [whole]
  exact passes

/-- Who handles a message lives. -/
theorem Moment.alive_of_mailbox (one : a.form.coordinator.OneFlight) {message : Message}
    {rest : List Message} (mailbox : a.form.mailbox = message :: rest) : a.form.alive = true :=
  alive_of_heard one (mailbox ▸ List.mem_cons_self)

/-- Each snapshot that a message publishes is taken at a stage where what is upheld holds, and when
the dirty marks are those that the message leaves. -/
theorem Moment.handle_publishes (h : a.perform? .handle = some b)
    (one : a.form.coordinator.OneFlight) (before : a.form.Upholds P)
    (move : ∀ {x y}, Standing.Move x y → P x.1 x.2 → P y.1 y.2) :
    ∃ message rest xs, a.form.mailbox = message :: rest ∧
      Turn.Publishes (a.scene.update fun f => { f with mailbox := rest }) xs
        ((a.scene.update fun f => { f with mailbox := rest }).handle a.now message) ∧
      ∀ x ∈ xs, ∃ stage st phase stage', P stage st ∧ a.form.standing.marks <:+ st.marks ∧
        st.marks <:+ b.form.standing.marks ∧ st.dirty = b.form.store.dirty ∧
        Stage.Next st.flying stage phase stage' ∧ st.Shows phase x := by
  obtain ⟨message, rest, s, t, mailbox, start, turn, landed, passes, -⟩ := perform?_passes h
  have first := before.living (alive_of_mailbox one mailbox)
  obtain ⟨later, last⟩ := Scene.land_marks t
  rw [← landed] at later last
  obtain ⟨xs, publishes, taken⟩ := passes.publishes
  subst turn start
  refine ⟨message, rest, xs, mailbox, publishes, fun x among => ?_⟩
  obtain ⟨stage, st, phase, stage', path, marks, dirty, next, seen⟩ := taken x among
  exact ⟨stage, st, phase, stage', path.keeps move first, path.marks, later ▸ marks,
    dirty.trans last.symm, next, seen⟩

theorem Form.Upholds.step (h : a.perform? d = some b) (one : a.form.coordinator.OneFlight)
    (move : ∀ {x y}, Standing.Move x y → P x.1 x.2 → P y.1 y.2)
    (drift : ∀ {st st'}, Standing.Drifts true st st' → P .resting st → P .resting st')
    (before : a.form.Upholds P) : b.form.Upholds P := by
  by_cases handling : d = .handle
  · subst handling
    obtain ⟨message, rest, _, t, mailbox, -, -, landed, passes, same⟩ := Moment.perform?_passes h
    have alive := Moment.alive_of_mailbox one mailbox
    rw [Moment.form, landed]
    exact passes.upholds move (before.living alive) fun s turn => (same s turn).trans alive
  by_cases closing : d = .close
  · subst closing
    simp only [Moment.perform?, Option.ite_none_right_eq_some, Option.some.injEq] at h
    obtain ⟨-, rfl⟩ := h
    exact before.close
  · obtain ⟨drifts, fate⟩ := Moment.perform?_drifts h handling closing
    have alive : b.form.alive = a.form.alive := congrArg Prod.fst fate
    have failed : b.form.failed = a.form.failed := congrArg Prod.snd fate
    constructor
    · intro living
      rw [alive] at living
      rw [living] at drifts
      exact drift drifts (before.living living)
    · intro dead
      rw [alive] at dead
      obtain ⟨last, st, held, same, reason⟩ := before.fallen dead
      rw [dead, same] at drifts
      exact ⟨last, st, held, drifts.ended, failed ▸ reason⟩

end

/-- What moves and drifts keep is upheld on every course. -/
theorem Course.upholds {P : Stage → Standing → Prop} {c : FormConfig} {now : Nat}
    {guard : UnloadGuard} {m : Moment} {log : Log} (course : Course (.opening c now guard) log m)
    (move : ∀ {x y}, Standing.Move x y → P x.1 x.2 → P y.1 y.2)
    (drift : ∀ {st st'}, Standing.Drifts true st st' → P .resting st → P .resting st')
    (first : P .resting (Form.make c now).standing) : m.form.Upholds P := by
  induction course with
  | here =>
    have passes := Scene.publishCurrent_passes ⟨Form.make c now, guard⟩ (.inl rfl)
    have ends := Scene.publishCurrent_ends ⟨Form.make c now, guard⟩
    refine passes.upholds move first fun s turn => ?_
    exact congrArg Coordinator.alive (ends.goes s turn)
  | next before done ih => exact Form.Upholds.step done (one_flight before) move drift ih

end LiveForm
