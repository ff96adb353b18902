import LiveForm.FieldPath.Parser
import LiveForm.World

/-!
A session of hosts with their forms: commands are sent, time passes, and after each step the hosts
see the results and what the forms have done since. Commands of one batch are all sent before a
form handles any of them.
-/

set_option autoImplicit false

namespace LiveForm

/-- What a host does with one form. Fields are named by the text of their paths. -/
inductive Command where
  | register (path : String) (rules : Option (List Rule)) (listener : Option Plan)
      (hook : Option Hook)
  | change (path : String) (value : Json)
  | set (path : String) (value : Json) (dirty : Option Bool)
  | unregister (paths : List String)
  | unregisterAll
  | reset (values : Option Json)
  | stop
  | get (path : String)
  | values
  | dirtyValues
  | state
  | button
  | currentState
  | submit
  | guard (name : String)

/-- One step of a session. Forms are named by their places. -/
inductive SessionStep where
  | command (form : Nat) (c : Command)
  | batch (commands : List (Nat × Command))
  | advance (ms : Nat)
  | wait (form : Nat) (phase : FormPhase) (count : Nat) (timeout : Nat)

inductive CommandResult where
  | done
  | failed (e : FormError)
  | invalidPattern
  | unknownField
  | bound (path : FieldPath)
  | value (v : Option Json)
  | values (v : Json)
  | state (s : Snapshot)
  | button (b : SubmitButton)
  | published (s : Snapshot)
  | ticket (n : Nat)
  | guard (g : Option UnloadGuard)

inductive StepResult where
  | spawned
  | command (r : CommandResult)
  | batch (rs : List CommandResult)
  | advanced
  | waited (r : World.WaitResult)

/-- What a form has done since the last report; outcomes stand in the order of their tickets. -/
structure Report where
  events : List Event
  outcomes : List (Nat × Except FormError SubmitOutcome)

/-- What a host keeps of one form: the fields it has registered, the requests to submit that are
still open, with their numbers, those that were turned down, and how much of the history it has
seen. -/
structure Client where
  bindings : List (String × FieldPath)
  submits : Nat
  openSubmits : List (Ticket × Nat)
  lostSubmits : List (Nat × FormError)
  seen : Nat

def Client.new : Client := ⟨[], 0, [], [], 0⟩

structure Session where
  world : World
  clients : List Client
  nextTicket : Ticket

namespace Session

/-- What a command comes to: a result at once, or one to be read from a reply. -/
inductive Awaited where
  | known (r : CommandResult)
  | reply (form : Nat) (ticket : Ticket) (read : Reply → CommandResult)
  | binding (form : Nat) (ticket : Ticket) (text : String) (path : FieldPath)

def gone : FormError := .unreachable .gone

def unanswered : FormError := .unreachable .unanswered

def form? (s : Session) (i : Nat) : Option Form := s.world.forms[i]?

def client (s : Session) (i : Nat) : Client := s.clients[i]?.getD .new

def isAlive (s : Session) (i : Nat) : Bool := (s.form? i).any Form.alive

def updateForm (s : Session) (i : Nat) (change : Form → Form) : Session :=
  { s with world := s.world.act i fun scene => scene.update change }

def updateClient (s : Session) (i : Nat) (change : Client → Client) : Session :=
  { s with clients := s.clients.modify i change }

def send (s : Session) (i : Nat) (m : Message) : Session := s.updateForm i fun f => f.post m

/-- Sends a request, whose reply is to be read. -/
def ask (s : Session) (i : Nat) (request : Request) (awaited : Ticket → Awaited) :
    Session × Awaited :=
  if s.isAlive i then
    ({ s.send i (.ask s.nextTicket request) with nextTicket := s.nextTicket + 1 },
      awaited s.nextTicket)
  else (s, .known (.failed gone))

/-- Goes on with a path, if the text is one. -/
def withPath (s : Session) (text : String) (go : FieldPath → Session × Awaited) :
    Session × Awaited :=
  match FieldPath.parse text with
  | .ok path => go path
  | .error e => (s, .known (.failed (.invalidPath e)))

/-- The reply to a request whose result is the reply itself. -/
def readReply : Reply → CommandResult
  | .done => .done
  | .refused e => .failed e
  | .value v => .value v
  | .values v => .values v
  | .state snapshot => .state snapshot
  | .button b => .button b
  | .outcome _ => .done

/-- Numbers a request to submit and sends it. -/
def postSubmit (s : Session) (i : Nat) : Session × Awaited :=
  let n := (s.client i).submits + 1
  let s := s.updateClient i fun c => { c with submits := n }
  if s.isAlive i then
    let s := s.updateClient i fun c => { c with openSubmits := c.openSubmits ++ [(s.nextTicket, n)] }
    (({ s with nextTicket := s.nextTicket + 1 }).send i (.ask s.nextTicket .submit),
      .known (.ticket n))
  else
    (s.updateClient i fun c => { c with lostSubmits := c.lostSubmits ++ [(n, gone)] },
      .known (.ticket n))

/-- Sends what a command has to send. -/
def post (s : Session) (i : Nat) : Command → Session × Awaited
  | .register _ none _ _ => (s, .known .invalidPattern)
  | .register text (some rules) listener hook =>
    s.withPath text fun path =>
      s.ask i (.register path ⟨listener.map fun plan => ⟨text, plan, 0⟩, rules, hook⟩) fun ticket =>
        .binding i ticket text path
  | .change text value =>
    match Assoc.find? text (s.client i).bindings with
    | none => (s, .known .unknownField)
    | some path =>
      if s.isAlive i then (s.send i (.fieldChanged path value), .known .done)
      else (s, .known (.failed gone))
  | .set text value dirty =>
    s.withPath text fun path => s.ask i (.setValue path value dirty) fun t => .reply i t readReply
  | .unregister texts =>
    match texts.mapM FieldPath.parse with
    | .ok paths => s.ask i (.unregister (some paths)) fun t => .reply i t readReply
    | .error e => (s, .known (.failed (.invalidPath e)))
  | .unregisterAll => s.ask i (.unregister none) fun t => .reply i t readReply
  | .reset values => s.ask i (.reset values) fun t => .reply i t readReply
  | .stop =>
    (s.updateForm i fun f => { f with stopRequested := f.alive }, .known .done)
  | .get text => s.withPath text fun path => s.ask i (.getValue path) fun t => .reply i t readReply
  | .values => s.ask i .getValues fun t => .reply i t readReply
  | .dirtyValues => s.ask i .getDirtyValues fun t => .reply i t readReply
  | .state => s.ask i .getState fun t => .reply i t readReply
  | .button => s.ask i .getSubmitButton fun t => .reply i t readReply
  | .currentState => (s, .known (.published ((s.form? i).elim .blank Form.published)))
  | .submit => s.postSubmit i
  | .guard name => (s, .known (.guard (s.world.guard? name)))

/-- The reply to a request, if the form has sent one. -/
def reply? (s : Session) (i : Nat) (ticket : Ticket) : Option Reply :=
  (s.form? i).bind fun f => f.reply? ticket

/-- Reads the result of a command once its form has come to rest. -/
def collect (s : Session) : Awaited → Session × CommandResult
  | .known r => (s, r)
  | .reply i ticket read =>
    (s, ((s.reply? i ticket).map read).getD (.failed unanswered))
  | .binding i ticket text path =>
    match s.reply? i ticket with
    | some (.refused e) => (s, .failed e)
    | some _ =>
      (s.updateClient i fun c => { c with bindings := Assoc.insert text path c.bindings },
        .bound path)
    | none => (s, .failed unanswered)

def postAll (s : Session) : List (Nat × Command) → Session × List Awaited
  | [] => (s, [])
  | (i, c) :: rest =>
    let (s, awaited) := s.post i c
    let (s, others) := s.postAll rest
    (s, awaited :: others)

def collectAll (s : Session) : List Awaited → Session × List CommandResult
  | [] => (s, [])
  | a :: rest =>
    let (s, r) := s.collect a
    let (s, rs) := s.collectAll rest
    (s, r :: rs)

/-- Sends commands, lets the forms come to rest, and reads the results. -/
def run (s : Session) (commands : List (Nat × Command)) : Session × List CommandResult :=
  let (s, awaited) := s.postAll commands
  { s with world := s.world.settle }.collectAll awaited

/-- What came of the open requests to submit: an outcome, or nothing if the form has ended. -/
def outcomes (f : Form) (events : List Event) (c : Client) :
    List (Nat × Except FormError SubmitOutcome) :=
  c.openSubmits.filterMap fun (ticket, n) =>
    match Event.reply? ticket events with
    | some (.outcome o) => some (n, .ok o)
    | _ => if f.alive then none else some (n, .error unanswered)

def insertByNumber {α : Type} (entry : Nat × α) : List (Nat × α) → List (Nat × α)
  | [] => [entry]
  | e :: rest => if entry.1 < e.1 then entry :: e :: rest else e :: insertByNumber entry rest

def sortByNumber {α : Type} (entries : List (Nat × α)) : List (Nat × α) :=
  entries.foldr insertByNumber []

/-- What a host has not seen yet of a form. -/
def reportOf (f : Form) (c : Client) : Client × Report :=
  let events := f.history.take (f.history.length - c.seen)
  let settled := outcomes f events c
  let lost := c.lostSubmits.map fun (n, e) => (n, Except.error e)
  ({ c with
      openSubmits := c.openSubmits.filter fun (_, n) => !settled.any fun o => o.1 = n
      lostSubmits := []
      seen := f.history.length },
    ⟨events.reverse, sortByNumber (lost ++ settled)⟩)

/-- Reports on all forms. -/
def report (s : Session) : Session × List Report :=
  let reports := (s.world.forms.zip s.clients).map fun (f, c) => reportOf f c
  ({ s with clients := reports.map Prod.fst }, reports.map Prod.snd)

def step (s : Session) : SessionStep → Session × StepResult
  | .command i c =>
    match s.run [(i, c)] with
    | (s, r :: _) => (s, .command r)
    | (s, []) => (s, .batch [])
  | .batch commands =>
    let (s, rs) := s.run commands
    (s, .batch rs)
  | .advance ms => ({ s with world := s.world.advance ms }, .advanced)
  | .wait i phase count timeout =>
    let wanted (f : Form) : Bool :=
      f.published.phase = phase && count ≤ f.published.submitCount.toNat
    let (world, r) := s.world.wait i wanted (some timeout)
    ({ s with world }, .waited r)

/-- Starts forms and lets them come to rest. -/
def start (configs : List FormConfig) : Session where
  world := (configs.foldl World.spawn .empty).settle
  clients := configs.map fun _ => .new
  nextTicket := 0

/-- Takes the steps one after another and reports after each. -/
def playFrom (s : Session) : List SessionStep → List (StepResult × List Report)
  | [] => []
  | step :: rest =>
    let (s, result) := s.step step
    let (s, reports) := s.report
    (result, reports) :: s.playFrom rest

/-- Starts forms and takes steps; the first report is that of the start. -/
def play (configs : List FormConfig) (steps : List SessionStep) :
    List (StepResult × List Report) :=
  let (s, reports) := (start configs).report
  (.spawned, reports) :: s.playFrom steps

end Session

end LiveForm
