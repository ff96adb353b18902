import LiveForm.Proofs.Edits
import LiveForm.Proofs.Script.Replay
import LiveForm.Proofs.Session

/-!
# A script's values are those of its edits

Edits of a script land before, between and behind submissions, those it asks for and those the form
makes by itself, and these succeed or fail when their time has come. If the script comes to an end
its values are what the edits alone make of the defaults.

* `Form.Closed`, `World.Lone`: what a form keeps up by itself holds while time passes and while
  something is waited for;
* `Script.Sends`: the edits sent so far are done when a request has been answered;
* `script_edits`: the values at the end.
-/

set_option autoImplicit false

namespace LiveForm

/-! ## What a form keeps up by itself -/

/-- Whatever a form does by itself, this goes on to hold. -/
def Form.Closed (P : Form → Prop) : Prop :=
  ∀ {s s' : Scene} {now : Nat}, P s.form → s.tick? now = some s' → P s'.form

theorem Form.Closed.settle {P : Form → Prop} (closed : Form.Closed P) {s : Scene} (now : Nat)
    (holds : P s.form) : P (s.settle now).form :=
  Scene.settleWithin_keeps (P := fun s => P s.form) closed _ holds

namespace World

/-- A world with one form, of which something holds. -/
def Lone (P : Form → Prop) (w : World) : Prop := ∃ f, w.forms = [f] ∧ P f

namespace Lone

variable {P Q : Form → Prop} {w : World}

theorem act (lone : w.Lone P) {change : Scene → Scene}
    (keeps : ∀ s : Scene, P s.form → Q (change s).form) : (w.act 0 change).Lone Q := by
  obtain ⟨f, only, holds⟩ := lone
  exact ⟨_, (act_single only change).1, keeps _ holds⟩

theorem settle (lone : w.Lone P) (closed : Form.Closed P) : w.settle.Lone P := by
  obtain ⟨f, only, holds⟩ := lone
  obtain ⟨guard, forms, -⟩ := settle_single only
  exact ⟨_, forms, closed.settle (s := ⟨f, guard⟩) w.now holds⟩

theorem moveTo (lone : w.Lone P) (closed : Form.Closed P) (time : Nat) : (w.moveTo time).Lone P :=
  settle (w := { w with now := max w.now time }) lone closed

theorem advanceWithin (lone : w.Lone P) (closed : Form.Closed P) (n target : Nat) :
    (World.advanceWithin n w target).Lone P := by
  induction n generalizing w with
  | zero => exact lone.moveTo closed target
  | succ n ih =>
    rw [World.advanceWithin]
    split
    · split
      · exact ih (lone.moveTo closed _)
      · exact lone.moveTo closed target
    · exact lone.moveTo closed target

theorem waitWithin (lone : w.Lone P) (closed : Form.Closed P) (n i : Nat) (wanted : Form → Bool)
    (deadline : Option Nat) : (World.waitWithin n w i wanted deadline).1.Lone P := by
  induction n generalizing w with
  | zero => exact lone.moveTo closed _
  | succ n ih =>
    rw [World.waitWithin]
    split
    · exact lone
    · split
      · exact lone
      · split
        · exact lone
        · split
          · exact ih (lone.moveTo closed _)
          · exact lone.moveTo closed _

end Lone

/-- What was waited for is there. -/
theorem wanted_of_reached {n i : Nat} {w w' : World} {wanted : Form → Bool} {deadline : Option Nat}
    (h : w.waitWithin n i wanted deadline = (w', .reached)) :
    ∃ f, w'.forms[i]? = some f ∧ wanted f = true := by
  induction n generalizing w with
  | zero => cases h
  | succ n ih =>
    rw [waitWithin] at h
    split at h
    · cases h
    · rename_i f there
      split at h
      · rename_i good
        cases h
        exact ⟨f, there, good⟩
      · split at h
        · cases h
        · split at h
          · exact ih h
          · cases h

end World

/-! ## Answers -/

theorem Event.answered_of_reply? {t : Ticket} {reply : Reply} {history : List Event}
    (h : Event.reply? t history = some reply) : .answered t reply ∈ history := by
  induction history with
  | nil => cases h
  | cons e rest ih =>
    cases e with
    | answered t' reply' =>
      rw [Event.reply?] at h
      split at h
      · rename_i same
        cases same
        cases h
        exact List.mem_cons_self
      · exact List.mem_cons_of_mem _ (ih h)
    | _ => exact List.mem_cons_of_mem _ (ih h)

/-- A request that has been answered is not in the mailbox. -/
theorem Moment.Ticketed.answered {m : Moment} (ticketed : m.Ticketed) {t : Ticket} {reply : Reply}
    (told : m.form.reply? t = some reply) :
    ∀ message ∈ m.form.mailbox, message.ticket? ≠ some t := by
  intro message among asks
  have asking : 0 < m.form.coordinator.asking t :=
    List.count_pos_iff.mpr (List.mem_filterMap.mpr ⟨message, among, asks⟩)
  have answers : 0 < m.form.coordinator.answersTo t := by
    refine List.countP_pos_iff.mpr ⟨.answered t reply, ?_, by simp [Event.isAnswerTo]⟩
    exact List.mem_filter.mpr ⟨Event.answered_of_reply? told, rfl⟩
  have once := ticketed.once t
  unfold Coordinator.placed at once
  omega

/-! ## Scripts -/

/-- The edit that a step makes. -/
def ScriptStep.edit? : ScriptStep → Option Edit
  | .set text value => (FieldPath.parse text).toOption.map fun path => (path, value)
  | _ => none

/-- Holds unless a write cannot be read, or names a place in a list. -/
def ScriptStep.isKeyed : ScriptStep → Bool
  | .set text _ => (FieldPath.parse text).toOption.any fun path =>
      path.segments.all fun s => (FieldPath.index? s).isNone
  | _ => true

def ScriptStep.Proper : ScriptStep → Prop
  | .set _ value => value.Proper
  | _ => True

/-- The edit of such a step. -/
theorem ScriptStep.edit?_plain {x : ScriptStep} {e : Edit} (keyed : x.isKeyed = true)
    (proper : x.Proper) (edit : x.edit? = some e) : e.Plain := by
  cases x with
  | sleep | submit => cases edit
  | set text value =>
    obtain ⟨path, read, rfl⟩ := Option.map_eq_some_iff.mp edit
    have keys : ∀ s ∈ path.segments, FieldPath.index? s = none := by
      simpa [isKeyed, read] using keyed
    exact ⟨⟨FieldPath.parse_named (FieldPath.parse_of_toOption read), keys⟩, proper⟩

/-- Values in a script are proper. -/
structure Script.Proper (s : Script) : Prop where
  defaults : s.defaults.Proper
  steps : ∀ x ∈ s.steps, x.Proper

/-- The edits of a script, in order. -/
def Script.edits (s : Script) : List Edit := s.steps.filterMap ScriptStep.edit?

/-- The edits sent to a form are done or wait, and of requests there waits at most the one that is
awaited. -/
structure Form.Holds (base : Json) (sent : List Edit) (awaited : Option Ticket) (f : Form) :
    Prop where
  carries : f.Carries base sent
  asks : ∀ m ∈ f.mailbox, m.isOwn = true ∨ ∃ t, awaited = some t ∧ m.ticket? = some t

section

variable {base : Json} {sent : List Edit} {awaited : Option Ticket}

theorem Form.holds_closed (document : base.Document) (plain : ∀ e ∈ sent, e.Plain) :
    Form.Closed fun f => f.alive = true → f.Holds base sent awaited := by
  intro s s' now holds tick alive
  obtain ⟨carries, asks⟩ := holds (Scene.tick?_alive tick alive)
  refine ⟨Scene.tick?_carries (fun _ => carries) document plain tick alive, ?_⟩
  have with_notice {rest : List Message} {notice : Option Message}
      (notices : ∀ m ∈ notice, m.isOwn = true) (fewer : ∀ m ∈ rest, m ∈ s.form.mailbox) :
      ∀ m ∈ rest ++ notice.toList, m.isOwn = true ∨ ∃ t, awaited = some t ∧ m.ticket? = some t := by
    refine List.forall_mem_append.mpr ⟨fun m inside => asks m (fewer m inside), fun m inside => ?_⟩
    exact .inl (notices m (Option.mem_toList.mp inside))
  rcases Scene.tick?_cases tick with rfl | ⟨m, rest, mailbox, rfl⟩ | ⟨notice, works⟩
  · cases alive
  · have turn := Moment.land_alive alive
    obtain ⟨notice, notices, left⟩ := Scene.handle_mailbox turn
    rw [left]
    exact with_notice notices fun m inside => mailbox ▸ List.mem_cons_of_mem _ inside
  · have mailbox : s'.form.mailbox = s.form.mailbox ++ notice.toList :=
      congrArg Desk.mailbox works.desk
    rw [mailbox]
    exact with_notice (works.own carries.load) fun m inside => inside

theorem Form.Holds.post {f : Form} {t : Ticket} {request : Request} (holds : f.Holds base sent none)
    (alive : f.alive = true) (only : (Message.ask t request).onlyEdits = true) :
    (f.post (.ask t request)).Holds base (sent ++ (Message.ask t request).edit?.toList) (some t) := by
  refine ⟨holds.carries.post alive only, ?_⟩
  have posted : f.post (.ask t request) = { f with mailbox := f.mailbox ++ [.ask t request] } :=
    if_pos alive
  rw [posted]
  refine List.forall_mem_append.mpr ⟨fun m inside => ?_, ?_⟩
  · obtain own | ⟨_, none, -⟩ := holds.asks m inside
    · exact .inl own
    · cases none
  · simp [Message.ticket?]

end

namespace Script

variable {s : Script} {settings : Settings} {base : Json} {sent : List Edit} {w w' : World}
  {tickets : Ticket}

/-- A world in which all edits sent so far are done. -/
structure Sends (s : Script) (settings : Settings) (base : Json) (sent : List Edit)
    (tickets : Ticket) (w : World) : Prop where
  course : w.OnCourse [s.formConfig settings] tickets
  lone : w.Lone fun f => f.alive = true → f.Holds base sent none

/-- The form has come where it is by a course. -/
theorem ticketed {f : Form} (course : w.OnCourse [s.formConfig settings] tickets)
    (only : w.forms = [f]) : ∃ m : Moment, m.form = f ∧ m.Ticketed := by
  obtain ⟨now, guard, log, m, course, shows, -⟩ := course.each 0 _ rfl
  have first : w.forms[0]? = some f := by simp [only]
  exact ⟨m, Option.some.inj (shows.form.symm.trans first), LiveForm.ticketed course⟩

/-- What was asked has been done when it is answered. -/
theorem Sends.ask {request : Request} (sends : s.Sends settings base sent tickets w)
    (h : Script.ask w tickets request = .ok w') (document : base.Document)
    (only : (Message.ask tickets request).onlyEdits = true)
    (plain : ∀ e ∈ sent ++ (Message.ask tickets request).edit?.toList, e.Plain) :
    s.Sends settings base (sent ++ (Message.ask tickets request).edit?.toList) (tickets + 1) w' := by
  unfold Script.ask at h
  split at h
  · dsimp only at h
    split at h
    · rename_i reached waited
      cases h
      have closed : Form.Closed fun f => f.alive = true → f.Holds base
          (sent ++ (Message.ask tickets request).edit?.toList) (some tickets) :=
        Form.holds_closed document plain
      have last : ((w.act place fun s => s.update fun f =>
          f.post (.ask tickets request)).settle.wait place (hasReply tickets) none).1 = w' :=
        congrArg Prod.fst waited
      have course : w'.OnCourse [s.formConfig settings] (tickets + 1) :=
        last ▸
          (sends.course.act (Nat.le_succ _) (Scene.ask_allowed request)).settle.waitWithin _ _ _ _
      have lone : w'.Lone fun f => f.alive = true → f.Holds base
          (sent ++ (Message.ask tickets request).edit?.toList) (some tickets) := by
        rw [← last]
        refine World.Lone.waitWithin (World.Lone.settle (sends.lone.act fun scene holds => ?_) closed)
          closed _ _ _ _
        intro alive
        have before : scene.form.alive = true := (Form.post_alive _ _).symm.trans alive
        exact (holds before).post before only
      refine ⟨course, ?_⟩
      obtain ⟨f, only, holds⟩ := lone
      refine ⟨f, only, fun alive => ?_⟩
      obtain ⟨carries, asks⟩ := holds alive
      obtain ⟨m, rfl, ticketed⟩ := ticketed course only
      obtain ⟨f, first, replied⟩ := World.wanted_of_reached waited
      obtain rfl : m.form = f := by simpa [only, place] using first
      obtain ⟨reply, told⟩ := Option.isSome_iff_exists.mp replied
      refine ⟨carries, fun message among => .inl ?_⟩
      obtain own | ⟨t, same, asking⟩ := asks message among
      · exact own
      · cases same
        exact absurd asking (ticketed.answered told message among)
    · cases h
  · cases h

/-- A step of the script sends its edit, if it makes one. -/
theorem Sends.step {x : ScriptStep} (sends : s.Sends settings base sent tickets w)
    (document : base.Document) (plain : ∀ e ∈ sent ++ x.edit?.toList, e.Plain)
    (h : Script.step w tickets x = .ok w') :
    s.Sends settings base (sent ++ x.edit?.toList) (tickets + 1) w' := by
  cases x with
  | set text value =>
    cases read : FieldPath.parse text with
    | error e =>
      rw [Script.step, read] at h
      cases h
    | ok path =>
      rw [Script.step, read] at h
      have same : (ScriptStep.set text value).edit? =
          (Message.ask tickets (.setValue path value (some true))).edit? := by
        simp [ScriptStep.edit?, read, Except.toOption, Message.edit?]
      rw [same] at plain ⊢
      exact sends.ask h document rfl plain
  | sleep ms =>
    cases h
    have none : (ScriptStep.sleep ms).edit?.toList = [] := rfl
    rw [none, List.append_nil] at plain ⊢
    exact ⟨(sends.course.advanceWithin _ _).mono (Nat.le_succ _),
      sends.lone.advanceWithin (Form.holds_closed document plain) _ _⟩
  | submit => exact sends.ask h document rfl plain

theorem Sends.runSteps {steps : List ScriptStep} (sends : s.Sends settings base sent tickets w)
    (document : base.Document)
    (plain : ∀ e ∈ sent ++ steps.filterMap ScriptStep.edit?, e.Plain)
    (h : Script.runSteps w tickets steps = .ok w') :
    ∃ tickets', s.Sends settings base (sent ++ steps.filterMap ScriptStep.edit?) tickets' w' := by
  induction steps generalizing sent tickets w with
  | nil =>
    cases h
    exact ⟨tickets, by simpa using sends⟩
  | cons x rest ih =>
    have split : sent ++ (x :: rest).filterMap ScriptStep.edit? =
        (sent ++ x.edit?.toList) ++ rest.filterMap ScriptStep.edit? := by
      rw [List.filterMap_cons]
      cases x.edit? <;> simp
    rw [split] at plain ⊢
    rw [Script.runSteps] at h
    cases first : Script.step w tickets x with
    | error e =>
      rw [first] at h
      cases h
    | ok next =>
      rw [first] at h
      have early : ∀ e ∈ sent ++ x.edit?.toList, e.Plain := fun e inside =>
        plain e (List.mem_append_left _ inside)
      exact ih (sends.step document early first) plain h

/-! ## The beginning and the end -/

theorem start_sends (settings : Settings) (document : (Store.rooted s.defaults).Document) :
    s.Sends settings (Store.rooted s.defaults) [] 0
      (World.empty.spawn (s.formConfig settings)).settle where
  course := (World.empty_onCourse.spawn _).settle
  lone := by
    let w : World := { World.empty with forms := [Form.make (s.formConfig settings) 0] }
    have opened : (World.empty.spawn (s.formConfig settings)).Lone fun f =>
        f.alive = true → f.Holds (Store.rooted s.defaults) [] none := by
      refine ⟨_, (World.act_single (w := w) rfl fun s => s.publishCurrent.land).1, fun _ => ?_⟩
      rw [Scene.publishCurrent, Scene.publish_unwatched rfl]
      refine ⟨⟨?_, rfl, [], rfl, rfl, fun _ => rfl, ?_⟩, ?_⟩
      · intro m inside
        cases inside
      · intro p flight
        cases flight
      · intro m inside
        cases inside
    exact opened.settle (Form.holds_closed document (by simp))

/-- At the end nothing waits in the mailbox that would bring an edit. -/
theorem Sends.finish {report : ScriptReport} (sends : s.Sends settings base sent tickets w)
    (document : base.Document) (plain : ∀ e ∈ sent, e.Plain) (h : s.finish w = .ok report) :
    Store.writeAll? base sent = some report.values := by
  unfold Script.finish at h
  split at h
  · rename_i w' waited
    split at h
    · rename_i f' living
      cases h
      have last : (w.wait place isIdle (some settleTimeout)).1 = w' := congrArg Prod.fst waited
      have lone : w'.Lone fun f => f.alive = true → f.Holds base sent none :=
        last ▸ sends.lone.waitWithin (Form.holds_closed document plain) _ _ _ _
      obtain ⟨f, only, holds⟩ := lone
      obtain ⟨first, alive⟩ := Option.filter_eq_some_iff.mp living
      obtain rfl : f = f' := by simpa [only, place] using first
      obtain ⟨carries, asks⟩ := holds alive
      obtain ⟨done, split, follows⟩ := carries.edits
      have none_left : f.mailbox.filterMap Message.edit? = [] := by
        refine List.filterMap_eq_nil_iff.mpr fun m among => ?_
        obtain own | ⟨t, none, -⟩ := asks m among
        · exact Message.edit?_own own
        · cases none
      rw [none_left, List.append_nil] at split
      exact split ▸ follows.values
    · cases h
  · cases h
  · cases h

end Script

open Script in
/-- If a script whose writes name no place in a list comes to an end, its values are what its edits,
one after the other, make of the defaults. How submissions are asked for, how long they take and how
they end, how long the script waits and what the settings are makes no difference. -/
theorem script_edits (s : Script) (settings : Settings) {report : ScriptReport} (proper : s.Proper)
    (keyed : s.steps.all ScriptStep.isKeyed = true) (ran : s.run settings = .ok report) :
    Store.writeAll? (Store.rooted s.defaults) s.edits = some report.values := by
  have document : (Store.rooted s.defaults).Document := Store.rooted_document proper.defaults
  have plain : ∀ e ∈ s.edits, e.Plain := by
    intro e edited
    obtain ⟨x, among, edit⟩ := List.mem_filterMap.mp edited
    exact ScriptStep.edit?_plain (List.all_eq_true.mp keyed x among) (proper.steps x among) edit
  unfold Script.run at ran
  split at ran
  · rename_i w done
    obtain ⟨tickets, sends⟩ := (start_sends settings document).runSteps document plain done
    exact sends.finish document plain ran
  · cases ran

/-- The form submits by itself, and edits come while that is under way: beside the one that was sent,
over it, and below the one before. -/
def Script.overtaken : Script where
  defaults := .obj [("name", .str "Ada")]
  autoSubmit := .config true (some 3)
  failSubmit := false
  latency := 20
  steps := [.set "name" (.str "Grace"), .sleep 5, .set "address" (.str "none"),
    .set "name" .null, .set "address.city" (.str "Paris"), .submit, .set "name.first" (.str "G")]

theorem script_edits_overtaken :
    ∃ report, Script.overtaken.run .standard = .ok report ∧
      Store.writeAll? (Store.rooted Script.overtaken.defaults) Script.overtaken.edits =
        some report.values := by
  have some : (Script.overtaken.run .standard).toOption.isSome = true := by decide +kernel
  have proper : Script.overtaken.Proper := by
    refine ⟨.obj (List.pairwise_singleton _ _) (by simp [Json.Proper.str]), ?_⟩
    simp [Script.overtaken, ScriptStep.Proper, Json.Proper.str, Json.Proper.null]
  cases ran : Script.overtaken.run .standard with
  | error e =>
    rw [ran] at some
    cases some
  | ok report => exact ⟨report, rfl, script_edits _ .standard proper (by decide +kernel) ran⟩

end LiveForm
