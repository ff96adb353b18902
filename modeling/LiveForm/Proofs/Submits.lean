import LiveForm.Proofs.Deferral

/-!
# Every submit is answered once, by the right cycle

What is known of the tickets of submits, and of the submissions they wait for, put together.
-/

set_option autoImplicit false

namespace LiveForm

/-- When nothing is in the mailbox and no submission is under way, nobody waits. -/
theorem nobody_waits {c : FormConfig} {now : Nat} {guard : UnloadGuard} {m : Moment} {log : Log}
    (course : Course (.opening c now guard) log m) (alive : m.form.alive = true)
    (mailbox : m.form.mailbox = []) (runs : m.form.runs = []) :
    m.form.waiters = [] ∧ m.form.nextWaiters = [] := by
  have none := nothing_pending course alive mailbox runs
  have clear : m.form.deferred = Option.none :=
    (orderly course alive).clear (Option.map_eq_none_iff.mpr none)
  simp [Form.waiters, Form.nextWaiters, none, clear]

theorem Form.coordinator_placed (f : Form) (t : Ticket) :
    f.coordinator.placed t = f.waiters.count t + f.nextWaiters.count t + f.answersTo t := by
  have waiters : f.coordinator.waiters = f.waiters := by
    cases flight : f.pending <;>
      simp [Coordinator.waiters, Form.waiters, Form.coordinator, flight, Pending.regardless]
  have answers : f.coordinator.answersTo t = f.answersTo t := by
    unfold Coordinator.answersTo answersTo coordinator
    rw [List.countP_filter]
    apply List.countP_congr
    intro e _
    cases e <;> simp [Event.isAnswerTo, Event.isRecorded]
  rw [Coordinator.placed, waiters, answers]
  rfl

theorem mem_record_of_mem {f : Form} {t : Ticket} {reply : Reply}
    (h : .answered t reply ∈ f.history) : .answered t reply ∈ f.coordinator.record :=
  List.mem_filter.mpr ⟨h, rfl⟩

/-- A submit that has been handled waits for the submission in flight or for the one put off, or it
has been answered. It is answered once at most, and it has been answered when a form that lives has
come to rest. The answer is the outcome of an attempt made in or after the deed that handled the
submit, on the values that were there then.

While a submission is in flight, what is put off is one submission for all submits and ends of waits
that are handled meanwhile. When the one in flight has settled, those who wait for it are all told
the same, and the one put off is attempted, and nothing else. -/
theorem every_submit_served {c : FormConfig} {now : Nat} {guard : UnloadGuard} {m : Moment} {log : Log}
    (course : Course (.opening c now guard) log m) :
    (∀ (later : Log) n d earlier t, log = later ++ (n, d) :: earlier →
      n.act d = .handles (.ask t .submit) →
      m.form.answersTo t ≤ 1 ∧
      (m.form.alive = true →
        m.form.waiters.count t + m.form.nextWaiters.count t + m.form.answersTo t = 1) ∧
      (m.form.alive = true → m.form.mailbox = [] → m.form.runs = [] → m.form.answersTo t = 1) ∧
      ∀ reply, .answered t reply ∈ m.form.history → ∃ o, reply = .outcome o ∧
        ∃ x ∈ later ++ [(n, d)], ∃ b, x.1.perform? x.2 = some b ∧
          LeadsTo n.form x.1.form b.form o) ∧
    (∀ (later : Log) a d earlier b p, log = later ++ (a, d) :: earlier → a.perform? d = some b →
      a.form.cycles < b.form.cycles → m.form.pending = some p → p.cycle = b.form.cycles →
      m.form.deferred = later.wants ∧
      ∀ d' m' failure, m.perform? d' = some m' → m.act d' = .handles (.settled p.cycle failure) →
        (∀ t ∈ p.waiters, ∀ reply, .answered t reply ∈ m'.form.history →
          reply = .outcome (p.outcome failure)) ∧
        (m'.form.alive = true → Settles m.form m'.form p failure later.wants)) := by
  have tickets := ticketed course
  constructor
  · rintro later n d earlier t rfl handles
    obtain ⟨b, before, done, after⟩ := course.split
    have once := tickets.once t
    have placed := m.form.coordinator_placed t
    have all (alive : m.form.alive = true) :
        m.form.waiters.count t + m.form.nextWaiters.count t + m.form.answersTo t = 1 := by
      have first := ((Moment.perform?_leaves done).step (after.alive_before alive)).placed t
      have kept := after.placed alive t
      rw [handles] at first
      simp only [Act.passed, Message.ticket?, Option.toList_some, List.count_singleton_self] at first
      omega
    refine ⟨by omega, all, ?_, ?_⟩
    · intro alive mailbox runs
      obtain ⟨waiters, next⟩ := nobody_waits course alive mailbox runs
      simpa [waiters, next] using all alive
    · intro reply answered
      exact (before.traced handles done after).answers reply (mem_record_of_mem answered)
  · rintro later a d earlier b p rfl done begins flight cycle
    obtain ⟨b', before, done', after⟩ := course.split
    obtain rfl : b = b' := by simpa [done] using done'
    have busy : m.form.coordinator.pending = some p.regardless := by simp [Form.coordinator, flight]
    have alive : m.form.alive = true := by
      by_contra dead
      have gone := ((one_flight course).fallen (Bool.eq_false_iff.mpr dead)).1
      simp [gone.landed] at busy
    have living := after.alive_before alive
    have latest : p.cycle = m.form.cycles := (orderly course alive).last p.regardless busy
    have first := ((Moment.perform?_leaves done).step living).begins
      (orderly before (Moment.perform?_alive done living)) begins
    have wants := after.deferred alive first (by simp [flight]) (by omega)
    refine ⟨wants, fun d' m' failure settles handles => ⟨fun t waits reply answered => ?_, ?_⟩⟩
    · exact Moment.perform?_settled_only settles tickets handles flight waits
        (mem_record_of_mem answered)
    · intro alive'
      exact wants ▸ Moment.perform?_settled settles alive' handles flight

/-- Two submits: the first is in flight, the second waits for the next one. -/
theorem every_submit_served_twice :
    ∃ log m m' p q failure, Course (.opening (.sample ⟨false, none⟩ .emptyObject) 0 .new) log m ∧
      m.form.waiters.count 1 + m.form.nextWaiters.count 1 + m.form.answersTo 1 = 1 ∧
      m.form.pending = some p ∧ m.form.deferred = some q ∧ m.perform? .handle = some m' ∧
      Settles m.form m'.form p failure (some q) := by
  obtain ⟨log, m, course, -, passed⟩ := Moment.course_of_test
    (.opening (.sample ⟨false, none⟩ .emptyObject) 0 .new)
    [.ask 0 .submit, .handle, .ask 1 .submit, .handle, .startCall 0 0, .pass 5,
      .endCall 0 0, .finishRun 0]
    (fun log m =>
      m.form.alive && m.form.deferred.isSome && (m.perform? .handle).any (fun m' => m'.form.alive) &&
      log[4]?.any (fun x => (x.1.act x.2).submit? == some 1) &&
      log[6]?.any (fun x => (x.1.perform? x.2).any fun b => decide (x.1.form.cycles < b.form.cycles) &&
        m.form.pending.any fun p => p.cycle == b.form.cycles &&
          (m.act .handle).isHandling (fun s => s.cycle? == some p.cycle)))
    (by decide +kernel)
  simp only [Bool.and_eq_true, Option.any_eq_true, beq_iff_eq, decide_eq_true_eq,
    Option.isSome_iff_exists, Act.isHandling_iff, Act.submit?_eq_some, Message.cycle?_eq_some]
    at passed
  obtain ⟨⟨⟨⟨alive, q, waiting⟩, m', settles, alive'⟩, x, first, submit⟩, y, second, b, done, begins, p,
    flight, cycle, _, handles, failure, rfl⟩ := passed
  obtain ⟨answered, together⟩ := every_submit_served course
  obtain ⟨wants, settled⟩ :=
    together _ _ _ _ b p (Log.around second) done begins flight cycle
  have served := (settled .handle m' failure settles handles).2 alive'
  rw [← wants, waiting] at served
  exact ⟨log, m, m', p, q, failure, course,
    (answered _ _ _ _ 1 (Log.around first) submit).2.1 alive, flight, waiting, settles, served⟩

end LiveForm
