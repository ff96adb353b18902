import LiveForm.Proofs.Neighbours
import LiveForm.Proofs.Waiters

/-!
# Forms in company

Forms live side by side in a world, with guards of their own or in common. Their deeds come in any
order, and in between the hosts do with the guards what they like.

* `Company.perform?`: the next thing to happen in a world;
* `Company.Comes`: a company has come where it is from the world without forms. The chronicle has what
  happened on the way, each with the company it happened in, the last one first;
* `Company.view`, `Company.account`: what there is to see of one form, and of what has concerned it;
* `forms_apart`: in any company a form goes on as it does alone.
-/

set_option autoImplicit false

namespace LiveForm

/-- The forms of a world. No ticket from `nextTicket` on has been given out. -/
structure Company where
  world : World
  nextTicket : Ticket

/-- What a form does or is asked to do. Time passes for all forms at once, and guards are lent to
all. -/
def Deed.isOwn : Deed → Bool
  | .pass _ | .share _ => false
  | _ => true

/-- What can happen next. Forms are named by their places. -/
inductive Occurrence where
  | spawn (c : FormConfig)
  | pass (ms : Nat)
  | deed (form : Nat) (d : Deed)
  | lend (name : String) (guard : UnloadGuard)

/-- Holds of the deeds of one form. The start of forms and the passing of time concern all. -/
def Occurrence.concerns (i : Nat) : Occurrence → Bool
  | .spawn _ | .pass _ => true
  | .deed j _ => i = j
  | .lend _ _ => false

namespace Company

def empty : Company := ⟨.empty, 0⟩

/-- The moment of one form. -/
def moment? (w : Company) (i : Nat) : Option Moment :=
  w.world.forms[i]?.map fun f => ⟨w.world.now, w.nextTicket, ⟨f, w.world.guard f.setup.guardName⟩⟩

/-- Puts the moment of one form into its place. -/
def put (w : Company) (i : Nat) (m : Moment) : Company := ⟨w.world.putScene i m.scene, m.nextTicket⟩

/-- Lets a thing happen, if it can. A guard can come into any state by what hosts do. -/
def perform? (w : Company) : Occurrence → Option Company
  | .spawn c => some { w with world := w.world.spawn c }
  | .pass ms => some { w with world := { w.world with now := w.world.now + ms } }
  | .deed i d =>
    if d.isOwn then ((w.moment? i).bind fun m => m.perform? d).map (w.put i) else none
  | .lend name guard =>
    some { w with
      world := { w.world with guards := Assoc.insert name guard w.world.guards } }

/-- What has happened, with the companies it happened in, the last first. -/
abbrev Chronicle := List (Company × Occurrence)

inductive Comes : Chronicle → Company → Prop where
  | here : Comes [] empty
  | next {log : Chronicle} {a b : Company} {o : Occurrence} :
      Comes log a → a.perform? o = some b → Comes ((a, o) :: log) b

/-- What there is to see of one form: the time, and the form but for what it knows of its guard. -/
def view (i : Nat) (w : Company) : Nat × Option Form := w.world.view i

/-- What has concerned one form, each with what there was to see of the form then. -/
def account (i : Nat) (log : Chronicle) : List ((Nat × Option Form) × Occurrence) :=
  (log.filter fun x => x.2.concerns i).map fun x => (x.1.view i, x.2)

variable {w w' a a' b : Company} {i : Nat} {o : Occurrence} {log log' : Chronicle} {m : Moment}

/-! ## One step -/

/-- Of two companies the same is to be seen of a form. The second has given out no more tickets. -/
structure Alongside (i : Nat) (a b : Company) : Prop where
  world : World.Alongside i a.world b.world
  tickets : b.nextTicket ≤ a.nextTicket

theorem perform?_deed {j : Nat} {d : Deed} (done : a.perform? (.deed j d) = some a') :
    ∃ m m', d.isOwn = true ∧ a.moment? j = some m ∧ m.perform? d = some m' ∧ a' = a.put j m' := by
  obtain ⟨own, put⟩ := Option.ite_none_right_eq_some.mp done
  obtain ⟨m', does, rfl⟩ := Option.map_eq_some_iff.mp put
  obtain ⟨m, found, does⟩ := Option.bind_eq_some_iff.mp does
  exact ⟨m, m', own, found, does, rfl⟩

theorem moment?_eq_some (found : a.moment? i = some m) :
    a.world.forms[i]? = some m.form ∧ m.now = a.world.now ∧ m.nextTicket = a.nextTicket := by
  obtain ⟨f, place, rfl⟩ := Option.map_eq_some_iff.mp found
  exact ⟨place, rfl, rfl⟩

theorem deed_tickets {d : Deed} {m' : Moment} (does : m.perform? d = some m') :
    m.nextTicket ≤ m'.nextTicket := by
  rcases Moment.perform?_nextTicket does with ⟨t, -, new, next⟩ | ⟨-, same⟩
  · exact next ▸ Nat.le_succ_of_le new
  · exact Nat.le_of_eq same.symm

/-- A form is seen where it has been put. -/
theorem put_view (place : i < a.world.forms.length) :
    (a.put i m).view i = (a.world.now, some m.form.apart) := by
  have found : (a.put i m).world.forms[i]? = some m.form := List.getElem?_set_self place
  rw [view, World.view, found]
  rfl

namespace Alongside

theorem view (along : Alongside i a b) : a.view i = b.view i := along.world.view

/-- What does not concern a form is not to be seen in it. -/
theorem aside (along : Alongside i a b) (done : a.perform? o = some a')
    (aside : o.concerns i = false) : Alongside i a' b := by
  cases o with
  | spawn | pass => cases aside
  | lend name guard =>
    cases done
    exact ⟨⟨along.world.view, along.world.length⟩, along.tickets⟩
  | deed j d =>
    obtain ⟨m, m', -, found, does, rfl⟩ := perform?_deed done
    obtain ⟨-, -, tickets⟩ := moment?_eq_some found
    have other : j ≠ i := fun same => by simp [Occurrence.concerns, same] at aside
    have same : (a.put j m').view i = a.view i :=
      Prod.ext rfl (congrArg (Option.map Form.apart) (List.getElem?_set_ne other))
    refine ⟨⟨same.trans along.view, List.length_set.trans along.world.length⟩, ?_⟩
    exact Nat.le_trans along.tickets (tickets ▸ deed_tickets does)

theorem moment (along : Alongside i a b) (found : a.moment? i = some m) :
    ∃ n, b.moment? i = some n ∧ m.Alike n := by
  obtain ⟨form, now, tickets⟩ := moment?_eq_some found
  obtain ⟨f, found', alike⟩ := along.world.found form
  refine ⟨_, congrArg (Option.map _) found', now.trans along.world.now, alike, ?_⟩
  exact tickets ▸ along.tickets

/-- What concerns a form can happen in both companies, and the same is to be seen of it then. -/
theorem step (along : Alongside i a b) (done : a.perform? o = some a')
    (own : o.concerns i = true) : ∃ b', b.perform? o = some b' ∧ Alongside i a' b' := by
  cases o with
  | lend => cases own
  | pass ms =>
    cases done
    have later := congrArg (· + ms) along.world.now
    exact ⟨_, rfl, ⟨Prod.ext later along.world.forms, along.world.length⟩, along.tickets⟩
  | spawn c =>
    cases done
    exact ⟨_, rfl, along.world.spawn c, along.tickets⟩
  | deed j d =>
    obtain rfl : i = j := of_decide_eq_true own
    obtain ⟨m, m', own, found, does, rfl⟩ := perform?_deed done
    obtain ⟨n, found', alike⟩ := along.moment found
    obtain ⟨n', does', alike'⟩ := alike.perform? does
    have place := (List.getElem?_eq_some_iff.mp (moment?_eq_some found).1).1
    have place' := along.world.length ▸ place
    refine ⟨b.put i n', ?_, ⟨?_, ?_⟩, alike'.tickets⟩
    · simp [Company.perform?, own, found', does']
    · have same : m'.form.apart = n'.form.apart := alike'.scene
      exact (put_view place).trans ((put_view place').trans (by rw [along.world.now, same])).symm
    · exact List.length_set.trans (along.world.length.trans List.length_set.symm)

end Alongside

/-! ## A run -/

/-- What has concerned one form. -/
def concerning (i : Nat) (log : Chronicle) : List Occurrence :=
  (log.map Prod.snd).filter fun o => o.concerns i

/-- Without what does not concern a form a run can take place too, and all the same is to be seen
of the form. -/
theorem Comes.alone (run : Comes log w) (i : Nat) : ∃ log₀ w₀, Comes log₀ w₀ ∧
    log₀.map Prod.snd = concerning i log ∧ account i log₀ = account i log ∧ Alongside i w w₀ := by
  induction run with
  | here => exact ⟨[], empty, .here, rfl, rfl, ⟨rfl, rfl⟩, Nat.le_refl _⟩
  | @next log a b o run done ih =>
    obtain ⟨log₀, a₀, run₀, same, seen, along⟩ := ih
    cases own : o.concerns i with
    | false =>
      refine ⟨log₀, a₀, run₀, ?_, ?_, along.aside done own⟩
      · simpa [concerning, own] using same
      · simpa [account, own] using seen
    | true =>
      obtain ⟨b₀, done₀, along₀⟩ := along.step done own
      refine ⟨(a₀, o) :: log₀, b₀, run₀.next done₀, ?_, ?_, along₀⟩
      · simpa [concerning, own] using same
      · simpa [account, own, along.view] using seen

/-- What happens decides a run. -/
theorem Comes.unique (run : Comes log w) (run' : Comes log' w')
    (same : log.map Prod.snd = log'.map Prod.snd) : log = log' ∧ w = w' := by
  induction run generalizing log' w' with
  | here =>
    cases run' with
    | here => exact ⟨rfl, rfl⟩
    | next => cases same
  | next _ done ih =>
    cases run' with
    | here => cases same
    | next before done' =>
      obtain ⟨rfl, others⟩ := List.cons.inj same
      obtain ⟨rfl, rfl⟩ := ih before others
      exact ⟨rfl, Option.some.inj (done.symm.trans done')⟩

/-- Two runs in which the same concerns a form have the same to see of it. -/
theorem Comes.same_account (run : Comes log w) (run' : Comes log' w')
    (same : concerning i log' = concerning i log) :
    account i log' = account i log ∧ w'.view i = w.view i := by
  obtain ⟨log₀, w₀, run₀, all, seen, along⟩ := run.alone i
  obtain ⟨log₁, w₁, run₁, all', seen', along'⟩ := run'.alone i
  obtain ⟨rfl, rfl⟩ := run₀.unique run₁ (by rw [all, all', same])
  exact ⟨seen'.symm.trans seen, along'.view.trans along.view.symm⟩

/-- Lets things happen one after another. -/
def performAll? (w : Company) : List Occurrence → Option Company
  | [] => some w
  | o :: rest => (w.perform? o).bind fun w => w.performAll? rest

theorem Comes.performAll? {os : List Occurrence} (run : Comes log w)
    (done : w.performAll? os = some w') : ∃ log', Comes log' w' := by
  induction os generalizing log w with
  | nil =>
    cases done
    exact ⟨log, run⟩
  | cons o rest ih =>
    obtain ⟨a, first, others⟩ := Option.bind_eq_some_iff.mp done
    exact ih (run.next first) others

end Company

open Company

/-- In any company a form goes on as it does alone. Whatever happens in a world, the same can happen
to one form without what the others do and what the hosts do with the guards; and whatever else
happens, each time that something concerns the form, and in the end, the same is to be seen of it.
Only the id of its token and whether the guard was blocking as a call started may differ. -/
theorem forms_apart {log : Chronicle} {w : Company} (run : Comes log w) (i : Nat) :
    (∃ log₀ w₀, Comes log₀ w₀ ∧ (∀ x ∈ log₀, x.2.concerns i = true) ∧
      account i log₀ = account i log ∧ w₀.view i = w.view i) ∧
    ∀ {log' : Chronicle} {w' : Company}, Comes log' w' → concerning i log' = concerning i log →
      account i log' = account i log ∧ w'.view i = w.view i := by
  refine ⟨?_, fun run' same => run.same_account run' same⟩
  obtain ⟨log₀, w₀, run₀, all, seen, along⟩ := run.alone i
  refine ⟨log₀, w₀, run₀, fun x among => ?_, seen, along.view.symm⟩
  have own : x.2 ∈ concerning i log := all ▸ List.mem_map_of_mem among
  exact (List.mem_filter.mp own).2

/-- Two forms share a guard. The second submits when the first has taken a token, so its own token is
not the one that it takes alone. -/
theorem forms_apart_two : ∃ log w f, Comes log w ∧ w.world.forms[1]? = some f ∧
    f.token = some 1 ∧ f.runs.length = 1 ∧
    ∃ log₀ w₀, Comes log₀ w₀ ∧ (∀ x ∈ log₀, x.2.concerns 1 = true) ∧ w₀.view 1 = w.view 1 := by
  have test : ((empty.performAll?
      [.spawn (.sample ⟨false, none⟩ .emptyObject), .spawn (.sample ⟨false, none⟩ .emptyObject),
        .deed 0 (.ask 0 .submit), .deed 1 (.ask 1 .submit), .deed 0 .handle, .pass 3,
        .deed 1 .handle, .deed 1 (.startCall 0 0)]).any fun w =>
      w.world.forms[1]?.any fun f => f.token == some 1 && f.runs.length == 1) = true := by
    decide +kernel
  simp only [Option.any_eq_true, Bool.and_eq_true, beq_iff_eq] at test
  obtain ⟨w, happened, f, found, token, started⟩ := test
  obtain ⟨log, run⟩ := Comes.here.performAll? happened
  obtain ⟨log₀, w₀, run₀, own, _, seen⟩ := (forms_apart run 1).1
  exact ⟨log, w, f, run, found, token, started, log₀, w₀, run₀, own, seen⟩

end LiveForm
