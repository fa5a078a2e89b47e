import Dmlf.Manager.Effects

/-!
# Delivery of commands

A handler of `ListenForCommands` looks at `context.is_active()`, blocks in `q.get`, and yields what
it gets.  Its stream may break at any of these points, and the manager may learn of it later.  A
`Delivery` is a manager with its command streams, each with its handler and with the commands that
it carries.

* `Delivery.inTransit_setStream` : the agent of a node reads from one stream at a time, so what is
  on its way to it is in order.
* `Delivery.conserved_iff` : every command that `send_command` accepts is queued, on its way or
  received, in order, exactly if no stream breaks with a command, and no handler takes one after its
  stream has broken.
-/

namespace Dmlf

/-- Where a handler of `ListenForCommands` is. -/
inductive StreamHandler where
  /-- Before `context.is_active()`. -/
  | checking
  /-- In `q.get`. -/
  | getting
  /-- Between `q.get` and `yield`. -/
  | holding (command : Command)

/-- The command that the handler has taken. -/
def StreamHandler.held : StreamHandler → List Command
  | .holding command => [command]
  | .checking | .getting => []

/-- A command stream. -/
structure CommandStream where
  nodeId : String
  /-- The agent reads from the stream. -/
  intact : Bool
  /-- `context.is_active()`: the manager does not know of a break. -/
  active : Bool
  handler : StreamHandler
  /-- What has been yielded and is not yet received. -/
  sent : List Command

namespace CommandStream

variable (stream : CommandStream)

/-- The commands that the stream and its handler carry, the oldest one first. -/
def carries : List Command := stream.sent ++ stream.handler.held

/-- The commands that the stream will bring to a node. -/
def inTransit (nodeId : String) : List Command :=
  if stream.nodeId = nodeId ∧ stream.intact = true then stream.carries else []

variable {stream}

theorem inTransit_of_broken (h : stream.intact = false) (n : String) : stream.inTransit n = [] :=
  if_neg fun hn => by simp [h] at hn

theorem inTransit_of_intact (h : stream.intact = true) :
    stream.inTransit stream.nodeId = stream.carries :=
  if_pos ⟨rfl, h⟩

end CommandStream

/-- A manager with its command streams. -/
structure Delivery where
  manager : Manager
  streams : List CommandStream
  /-- Auxiliary: the commands for a node that `send_command` has accepted so far. -/
  accepted : String → List Command
  /-- Auxiliary: the commands that the agent of a node has received so far. -/
  received : String → List Command

/-- What happens to command queues and streams. -/
inductive DeliveryMove where
  | register (nodeId : String)
  | send (nodeId : String) (command : Command)
  | listen (nodeId : String)
  | disconnect (i : ℕ)
  | notice (i : ℕ)
  | check (i : ℕ)
  | timeout (i : ℕ)
  | get (i : ℕ)
  | yieldCommand (i : ℕ)
  | receive (i : ℕ)

/-- Append a command to the record of one node. -/
def record (log : String → List Command) (nodeId : String) (command : Command) :
    String → List Command :=
  fun n => if n = nodeId then log n ++ [command] else log n

namespace Delivery

/-- A manager that has just started. -/
def start (reg : Registry) : Delivery := ⟨.serve reg [], [], fun _ => [], fun _ => []⟩

variable (d : Delivery)

/-- Overwrite stream `i`. -/
def setStream (i : ℕ) (stream : CommandStream) : Delivery :=
  { d with streams := d.streams.set i stream }

/-- Overwrite the manager. -/
def setManager (manager : Manager) : Delivery := { d with manager }

/-- The agent of a node receives a command. -/
def addReceived (nodeId : String) (command : Command) : Delivery :=
  { d with received := record d.received nodeId command }

/-- The commands that are queued for a node. -/
def queued (nodeId : String) : List Command := (d.manager.commandQueues nodeId).getD []

/-- The commands that are on their way to a node. -/
def inTransit (nodeId : String) : List Command :=
  d.streams.flatMap fun stream => stream.inTransit nodeId

/-- One move. -/
def exec : DeliveryMove → Option Delivery
  | .register nodeId =>
    if (d.manager.commandQueues nodeId).isNone then
      some { d with manager := d.manager.newCommandQueue nodeId }
    else none
  | .send nodeId command =>
    some { d with
      manager := d.manager.sendCommand nodeId command
      -- without a queue the command is not accepted
      accepted := if (d.manager.commandQueues nodeId).isSome then
        record d.accepted nodeId command else d.accepted }
  -- the agent listens again when its last stream has broken (`start`)
  | .listen nodeId =>
    if ∃ stream ∈ d.streams, stream.nodeId = nodeId ∧ stream.intact = true then none
    else some { d with
      manager := d.manager.listenForCommands nodeId
      streams := d.streams ++ [⟨nodeId, true, true, .checking, []⟩] }
  -- what has been yielded is lost with the stream
  | .disconnect i =>
    d.streams[i]?.map fun stream => d.setStream i { stream with intact := false, sent := [] }
  | .notice i =>
    d.streams[i]?.bind fun stream =>
      if stream.intact then none else some (d.setStream i { stream with active := false })
  | .check i =>
    d.streams[i]?.bind fun stream =>
      match stream.handler with
      | .checking =>
        if stream.active then some (d.setStream i { stream with handler := .getting })
        else some { d with streams := d.streams.eraseIdx i }
      | _ => none
  | .timeout i =>
    d.streams[i]?.bind fun stream =>
      match stream.handler with
      | .getting =>
        if (d.manager.takeCommand stream.nodeId).isNone then
          some (d.setStream i { stream with handler := .checking })
        else none
      | _ => none
  | .get i =>
    d.streams[i]?.bind fun stream =>
      match stream.handler with
      | .getting =>
        (d.manager.takeCommand stream.nodeId).map fun (command, manager) =>
          (d.setStream i { stream with handler := .holding command }).setManager manager
      | _ => none
  -- on a broken stream the command does not get anywhere
  | .yieldCommand i =>
    d.streams[i]?.bind fun stream =>
      match stream.handler with
      | .holding command =>
        some (d.setStream i
          { stream with
            handler := .checking
            sent := if stream.intact then stream.sent ++ [command] else stream.sent })
      | _ => none
  | .receive i =>
    d.streams[i]?.bind fun stream =>
      match stream.intact, stream.sent with
      | true, command :: sent =>
        some ((d.setStream i { stream with sent }).addReceived stream.nodeId command)
      | _, _ => none

/-- The command streams of a manager as a transition system. -/
def lts : LTS Delivery DeliveryMove := LTS.ofExec exec

/-- For every node, the commands accepted so far are those received, then those on their way, and
then those still queued, in this order. -/
def Conserved (d : Delivery) : Prop :=
  ∀ n, d.accepted n = d.received n ++ d.inTransit n ++ d.queued n

/-- A stream that breaks carries no command, and a handler that takes one has an intact stream. -/
def KeepsCommands (d : Delivery) : DeliveryMove → Prop
  | .disconnect i => ∀ stream, d.streams[i]? = some stream → stream.intact = true →
      stream.carries = []
  | .get i => ∀ stream, d.streams[i]? = some stream → stream.intact = true
  | _ => True

/-- The agent of a node reads from one stream, and the manager has learned of breaks only. -/
structure WellFormed (d : Delivery) : Prop where
  oneIntact : d.streams.Pairwise fun s s' =>
    s.intact = true → s'.intact = true → s.nodeId ≠ s'.nodeId
  active : ∀ stream ∈ d.streams, stream.intact = true → stream.active = true

variable {d d' : Delivery} {i : ℕ} {stream stream' : CommandStream}

/-! ### Streams -/

theorem exists_split (hi : d.streams[i]? = some stream) : ∃ l₁ l₂,
    d.streams = l₁ ++ stream :: l₂ ∧ d.streams.eraseIdx i = l₁ ++ l₂ ∧
      ∀ stream', (d.setStream i stream').streams = l₁ ++ stream' :: l₂ := by
  obtain ⟨hlt, rfl⟩ := List.getElem?_eq_some_iff.1 hi
  refine ⟨d.streams.take i, d.streams.drop (i + 1), ?_, List.eraseIdx_eq_take_drop_succ _ _,
    fun stream' => ?_⟩
  · rw [List.getElem_cons_drop, List.take_append_drop]
  · rw [setStream, List.set_eq_take_append_cons_drop, if_pos hlt]

theorem inTransit_of_same (hi : d.streams[i]? = some stream) {n : String}
    (h : stream'.inTransit n = stream.inTransit n) :
    (d.setStream i stream').inTransit n = d.inTransit n := by
  obtain ⟨l₁, l₂, hsplit, -, hset⟩ := exists_split hi
  simp only [inTransit, hset, hsplit, List.flatMap_append, List.flatMap_cons, h]

theorem inTransit_eraseIdx (hi : d.streams[i]? = some stream) {n : String}
    (h : stream.inTransit n = []) :
    ({ d with streams := d.streams.eraseIdx i } : Delivery).inTransit n = d.inTransit n := by
  obtain ⟨l₁, l₂, hsplit, herase, -⟩ := exists_split hi
  rw [inTransit, inTransit, herase, hsplit, List.flatMap_append, List.flatMap_append,
    List.flatMap_cons, h, List.nil_append]

/-- **What an intact stream brings** is all that is on its way to its node. -/
theorem inTransit_setStream (stream' : CommandStream) (h : d.WellFormed)
    (hi : d.streams[i]? = some stream) (hintact : stream.intact = true)
    (hid : stream'.nodeId = stream.nodeId) (n : String) :
    (d.setStream i stream').inTransit n =
      if n = stream.nodeId then stream'.inTransit n else d.inTransit n := by
  split_ifs with hn
  · obtain ⟨l₁, l₂, hsplit, -, hset⟩ := exists_split hi
    have hpair := h.oneIntact
    rw [hsplit, List.pairwise_append, List.pairwise_cons] at hpair
    obtain ⟨-, ⟨hafter, -⟩, hbefore⟩ := hpair
    -- the other streams of the node are broken
    have hnil : ∀ s ∈ l₁ ++ l₂, s.inTransit n = [] := by
      intro s hs
      refine if_neg fun ⟨hnode, hs'⟩ => ?_
      rcases List.mem_append.1 hs with hs | hs
      · exact hbefore s hs stream List.mem_cons_self hs' hintact (hnode.trans hn)
      · exact hafter s hs hintact hs' (hn.symm.trans hnode.symm)
    have hnil₁ := List.flatMap_eq_nil_iff.2 fun s hs => hnil s (List.mem_append_left l₂ hs)
    have hnil₂ := List.flatMap_eq_nil_iff.2 fun s hs => hnil s (List.mem_append_right l₁ hs)
    rw [inTransit, hset, List.flatMap_append, List.flatMap_cons, hnil₁, hnil₂, List.nil_append,
      List.append_nil]
  · have hne : stream.nodeId ≠ n := fun h => hn h.symm
    refine inTransit_of_same hi ?_
    rw [CommandStream.inTransit, CommandStream.inTransit, if_neg fun h => hne (hid ▸ h.1),
      if_neg fun h => hne h.1]

theorem inTransit_of_intact (h : d.WellFormed) (hi : d.streams[i]? = some stream)
    (hintact : stream.intact = true) : d.inTransit stream.nodeId = stream.carries := by
  have hsame : d.setStream i stream = d := by
    obtain ⟨l₁, l₂, hsplit, -, hset⟩ := exists_split hi
    have hstreams : (d.setStream i stream).streams = d.streams := (hset stream).trans hsplit.symm
    exact congrArg (fun streams => ({ d with streams } : Delivery)) hstreams
  have hset := inTransit_setStream stream h hi hintact rfl stream.nodeId
  rwa [hsame, if_pos rfl, CommandStream.inTransit_of_intact hintact] at hset

theorem WellFormed.setStream (h : d.WellFormed) (hi : d.streams[i]? = some stream)
    (hid : stream'.nodeId = stream.nodeId)
    (hintact : stream'.intact = true → stream.intact = true)
    (hactive : stream'.intact = true → stream'.active = true) :
    (d.setStream i stream').WellFormed := by
  obtain ⟨l₁, l₂, hsplit, -, hset⟩ := exists_split hi
  refine ⟨?_, fun s hs hs' => ?_⟩
  · have hpair := h.oneIntact
    rw [hsplit, List.pairwise_append, List.pairwise_cons] at hpair
    obtain ⟨hpair₁, ⟨hafter, hpair₂⟩, hbefore⟩ := hpair
    rw [hset, List.pairwise_append, List.pairwise_cons]
    refine ⟨hpair₁, ⟨fun s hs hs' hs'' => ?_, hpair₂⟩, fun s hs s' hs' hint hint' => ?_⟩
    · rw [hid]
      exact hafter s hs (hintact hs') hs''
    · rcases List.mem_cons.1 hs' with rfl | hs'
      · rw [hid]
        exact hbefore s hs stream List.mem_cons_self hint (hintact hint')
      · exact hbefore s hs s' (List.mem_cons_of_mem _ hs') hint hint'
  · rw [hset, List.mem_append, List.mem_cons] at hs
    rcases hs with hs | rfl | hs
    · exact h.active s (hsplit ▸ List.mem_append_left _ hs) hs'
    · exact hactive hs'
    · exact h.active s (hsplit ▸ List.mem_append_right _ (List.mem_cons_of_mem _ hs)) hs'

theorem WellFormed.listen (h : d.WellFormed) {nodeId : String}
    (hnone : ¬ ∃ stream ∈ d.streams, stream.nodeId = nodeId ∧ stream.intact = true)
    (hd' : d'.streams = d.streams ++ [⟨nodeId, true, true, .checking, []⟩]) : d'.WellFormed := by
  refine ⟨?_, fun s hs hs' => ?_⟩
  · rw [hd', List.pairwise_append]
    refine ⟨h.oneIntact, List.pairwise_singleton _ _, fun s hs s' hs' hint _ hid => ?_⟩
    obtain rfl := List.mem_singleton.1 hs'
    exact hnone ⟨s, hs, hid, hint⟩
  · rw [hd', List.mem_append, List.mem_singleton] at hs
    rcases hs with hs | rfl
    · exact h.active s hs hs'
    · rfl

/-! ### Moves -/

/-- What a move can do. -/
inductive Effect (d : Delivery) : DeliveryMove → Delivery → Prop
  | register {nodeId : String} : (d.manager.commandQueues nodeId).isNone = true →
      Effect d (.register nodeId) { d with manager := d.manager.newCommandQueue nodeId }
  | send {nodeId : String} {command : Command} : Effect d (.send nodeId command) { d with
      manager := d.manager.sendCommand nodeId command
      accepted := if (d.manager.commandQueues nodeId).isSome then
        record d.accepted nodeId command else d.accepted }
  | listen {nodeId : String} :
      (¬ ∃ stream ∈ d.streams, stream.nodeId = nodeId ∧ stream.intact = true) →
      Effect d (.listen nodeId) { d with
        manager := d.manager.listenForCommands nodeId
        streams := d.streams ++ [⟨nodeId, true, true, .checking, []⟩] }
  | disconnect {i : ℕ} {stream : CommandStream} : d.streams[i]? = some stream →
      Effect d (.disconnect i) (d.setStream i { stream with intact := false, sent := [] })
  | notice {i : ℕ} {stream : CommandStream} : d.streams[i]? = some stream →
      stream.intact = false →
      Effect d (.notice i) (d.setStream i { stream with active := false })
  | checkActive {i : ℕ} {stream : CommandStream} : d.streams[i]? = some stream →
      stream.handler = .checking →
      Effect d (.check i) (d.setStream i { stream with handler := .getting })
  | checkEnded {i : ℕ} {stream : CommandStream} : d.streams[i]? = some stream →
      stream.active = false →
      Effect d (.check i) { d with streams := d.streams.eraseIdx i }
  | timeout {i : ℕ} {stream : CommandStream} : d.streams[i]? = some stream →
      stream.handler = .getting →
      Effect d (.timeout i) (d.setStream i { stream with handler := .checking })
  | get {i : ℕ} {stream : CommandStream} {command : Command} {manager : Manager} :
      d.streams[i]? = some stream → stream.handler = .getting →
      d.manager.takeCommand stream.nodeId = some (command, manager) →
      Effect d (.get i)
        ((d.setStream i { stream with handler := .holding command }).setManager manager)
  | yieldCommand {i : ℕ} {stream : CommandStream} {command : Command} :
      d.streams[i]? = some stream → stream.handler = .holding command →
      Effect d (.yieldCommand i) (d.setStream i
        { stream with
          handler := .checking
          sent := if stream.intact then stream.sent ++ [command] else stream.sent })
  | receive {i : ℕ} {stream : CommandStream} {command : Command} {sent : List Command} :
      d.streams[i]? = some stream → stream.intact = true → stream.sent = command :: sent →
      Effect d (.receive i)
        ((d.setStream i { stream with sent }).addReceived stream.nodeId command)

theorem effect {mv : DeliveryMove} (hst : exec d mv = some d') : Effect d mv d' := by
  cases mv with
  | register nodeId =>
    obtain ⟨hnone, hst⟩ := Option.ite_none_right_eq_some.1 hst
    obtain rfl := Option.some.inj hst
    exact .register hnone
  | send nodeId command =>
    obtain rfl := Option.some.inj hst
    exact .send
  | listen nodeId =>
    obtain ⟨hnone, hst⟩ := Option.ite_none_left_eq_some.1 hst
    obtain rfl := Option.some.inj hst
    exact .listen hnone
  | disconnect i =>
    obtain ⟨stream, hi, rfl⟩ := Option.map_eq_some_iff.1 hst
    exact .disconnect hi
  | notice i =>
    obtain ⟨stream, hi, hst⟩ := Option.bind_eq_some_iff.1 hst
    obtain ⟨hbroken, hst⟩ := Option.ite_none_left_eq_some.1 hst
    obtain rfl := Option.some.inj hst
    exact .notice hi (by simpa using hbroken)
  | check i =>
    obtain ⟨stream, hi, hst⟩ := Option.bind_eq_some_iff.1 hst
    split at hst
    · rename_i hchecking
      split_ifs at hst with hactive
      · obtain rfl := Option.some.inj hst
        exact .checkActive hi hchecking
      · obtain rfl := Option.some.inj hst
        exact .checkEnded hi (by simpa using hactive)
    · cases hst
  | timeout i =>
    obtain ⟨stream, hi, hst⟩ := Option.bind_eq_some_iff.1 hst
    split at hst
    · rename_i hgetting
      obtain ⟨-, hst⟩ := Option.ite_none_right_eq_some.1 hst
      obtain rfl := Option.some.inj hst
      exact .timeout hi hgetting
    · cases hst
  | get i =>
    obtain ⟨stream, hi, hst⟩ := Option.bind_eq_some_iff.1 hst
    split at hst
    · rename_i hgetting
      obtain ⟨⟨command, manager⟩, htake, rfl⟩ := Option.map_eq_some_iff.1 hst
      exact .get hi hgetting htake
    · cases hst
  | yieldCommand i =>
    obtain ⟨stream, hi, hst⟩ := Option.bind_eq_some_iff.1 hst
    split at hst
    · rename_i command hholding
      obtain rfl := Option.some.inj hst
      exact .yieldCommand hi hholding
    · cases hst
  | receive i =>
    obtain ⟨stream, hi, hst⟩ := Option.bind_eq_some_iff.1 hst
    split at hst
    · rename_i command sent hintact hsent
      obtain rfl := Option.some.inj hst
      exact .receive hi hintact hsent
    · cases hst

theorem preserves_wellFormed : lts.Preserves WellFormed := by
  intro d mv d' hst h
  cases effect hst with
  | register | send => exact ⟨h.oneIntact, h.active⟩
  | listen hnone => exact h.listen hnone rfl
  | disconnect hi =>
    exact h.setStream hi rfl (fun hint => by cases hint) fun hint => by cases hint
  | notice hi hbroken =>
    exact h.setStream hi rfl id fun hint => by
      rw [hbroken] at hint
      cases hint
  | checkActive hi | timeout hi | yieldCommand hi =>
    have hactive := h.active _ (List.mem_of_getElem? hi)
    exact h.setStream hi rfl id hactive
  | @checkEnded i stream =>
    have hsub : (d.streams.eraseIdx i).Sublist d.streams := List.eraseIdx_sublist _ _
    exact ⟨h.oneIntact.sublist hsub, fun s hs => h.active s (hsub.subset hs)⟩
  | @get i stream command manager hi =>
    have hactive := h.active _ (List.mem_of_getElem? hi)
    have hset : (d.setStream i { stream with handler := .holding command }).WellFormed :=
      h.setStream hi rfl id hactive
    exact ⟨hset.oneIntact, hset.active⟩
  | @receive i stream command sent hi =>
    have hactive := h.active _ (List.mem_of_getElem? hi)
    have hset : (d.setStream i { stream with sent }).WellFormed := h.setStream hi rfl id hactive
    exact ⟨hset.oneIntact, hset.active⟩

theorem Conserved.congr (h : d.Conserved) (hq : ∀ n, d'.queued n = d.queued n)
    (ht : ∀ n, d'.inTransit n = d.inTransit n) (ha : d'.accepted = d.accepted)
    (hr : d'.received = d.received) : d'.Conserved := by
  intro n
  rw [hq, ht, ha, hr]
  exact h n

theorem Conserved.of_same (h : d.Conserved) (hi : d.streams[i]? = some stream)
    (hsame : ∀ n, stream'.inTransit n = stream.inTransit n) :
    (d.setStream i stream').Conserved :=
  h.congr (fun _ => rfl) (fun n => inTransit_of_same hi (hsame n)) rfl rfl

theorem Conserved.of_broken (h : d.Conserved) (hi : d.streams[i]? = some stream)
    (hbroken : stream.intact = false) (hbroken' : stream'.intact = false) :
    (d.setStream i stream').Conserved :=
  h.of_same hi fun n => by
    rw [CommandStream.inTransit_of_broken hbroken, CommandStream.inTransit_of_broken hbroken']

theorem Conserved.send (h : d.Conserved) (nodeId : String) (command : Command) :
    ({ d with
      manager := d.manager.sendCommand nodeId command
      accepted := if (d.manager.commandQueues nodeId).isSome then
        record d.accepted nodeId command else d.accepted } : Delivery).Conserved := by
  intro n
  have hn := h n
  simp only [queued, inTransit, Manager.commandQueues_sendCommand] at hn ⊢
  cases hq : d.manager.commandQueues nodeId with
  | none =>
    simp only [Option.isSome_none, Bool.false_eq_true, if_false, Option.map_none]
    split_ifs with hnode
    · rw [hn, hnode, hq]
    · exact hn
  | some q =>
    simp only [Option.isSome_some, if_true, Option.map_some, record]
    split_ifs with hnode
    · rw [hn, hnode, hq, Option.getD_some, Option.getD_some, List.append_assoc]
    · exact hn

theorem conserved_disconnect (hd : d.WellFormed) (h : d.Conserved)
    (hi : d.streams[i]? = some stream) :
    (d.setStream i { stream with intact := false, sent := [] }).Conserved ↔
      d.KeepsCommands (.disconnect i) := by
  by_cases hintact : stream.intact = true
  · have hset := inTransit_setStream { stream with intact := false, sent := [] } hd hi hintact rfl
    have hbefore := inTransit_of_intact hd hi hintact
    have haccepted := h stream.nodeId
    rw [hbefore] at haccepted
    constructor
    · intro h' stream' hi' _
      obtain rfl : stream = stream' := Option.some.inj (hi.symm.trans hi')
      -- what the stream has carried is missing
      have hlost := (h' stream.nodeId).symm.trans haccepted
      rw [hset, if_pos rfl, CommandStream.inTransit_of_broken rfl, List.append_nil,
        List.append_assoc] at hlost
      have hlen := congrArg List.length (List.append_cancel_left hlost)
      rw [List.length_append] at hlen
      exact List.eq_nil_of_length_eq_zero (by simpa [queued, setStream] using hlen)
    · intro hG
      refine h.congr (fun _ => rfl) (fun n => ?_) rfl rfl
      rw [hset]
      split_ifs with hn
      · rw [hn, hbefore, hG stream hi hintact, CommandStream.inTransit_of_broken rfl]
      · rfl
  · have hbroken : stream.intact = false := by simpa using hintact
    refine iff_of_true (h.of_broken hi hbroken rfl) fun stream' hi' hintact' => ?_
    obtain rfl : stream = stream' := Option.some.inj (hi.symm.trans hi')
    exact absurd hintact' hintact

theorem conserved_get (hd : d.WellFormed) (h : d.Conserved) (hi : d.streams[i]? = some stream)
    (hhandler : stream.handler = .getting) {command : Command} {manager : Manager}
    (htake : d.manager.takeCommand stream.nodeId = some (command, manager)) :
    ((d.setStream i { stream with handler := .holding command }).setManager manager).Conserved ↔
      d.KeepsCommands (.get i) := by
  obtain ⟨rest, hqueue, rfl⟩ := Manager.takeCommand_eq_some htake
  let stream' : CommandStream := { stream with handler := .holding command }
  have haccepted := h stream.nodeId
  rw [queued, hqueue, Option.getD_some] at haccepted
  by_cases hintact : stream.intact = true
  · refine iff_of_true (fun n => ?_) fun s hs => ?_
    · change d.accepted n = d.received n ++ (d.setStream i stream').inTransit n ++
        (if n = stream.nodeId then some rest else d.manager.commandQueues n).getD []
      rw [inTransit_setStream stream' hd hi hintact rfl n]
      split_ifs with hn
      · have hnew : stream'.inTransit n = stream.sent ++ [command] := if_pos ⟨hn.symm, hintact⟩
        have hold : stream.carries = stream.sent := by
          rw [CommandStream.carries, hhandler]
          exact List.append_nil _
        rw [hnew, hn, haccepted, inTransit_of_intact hd hi hintact, hold, Option.getD_some]
        simp only [List.append_assoc, List.cons_append, List.nil_append]
      · exact h n
    · obtain rfl : stream = s := Option.some.inj (hi.symm.trans hs)
      exact hintact
  · refine iff_of_false (fun h' => ?_) fun hG => hintact (hG stream hi)
    have hbroken : stream.intact = false := by simpa using hintact
    have htransit : (d.setStream i stream').inTransit stream.nodeId =
        d.inTransit stream.nodeId := by
      have hbroken' : stream'.intact = false := hbroken
      refine inTransit_of_same hi ?_
      rw [CommandStream.inTransit_of_broken hbroken', CommandStream.inTransit_of_broken hbroken]
    have hlost : d.accepted stream.nodeId = d.received stream.nodeId ++
        (d.setStream i stream').inTransit stream.nodeId ++
        (if stream.nodeId = stream.nodeId then some rest
          else d.manager.commandQueues stream.nodeId).getD [] := h' stream.nodeId
    rw [htransit, if_pos rfl, Option.getD_some, haccepted] at hlost
    have hlen := congrArg List.length (List.append_cancel_left hlost)
    rw [List.length_cons] at hlen
    omega

theorem conserved_receive (hd : d.WellFormed) (h : d.Conserved)
    (hi : d.streams[i]? = some stream) (hintact : stream.intact = true) {command : Command}
    {sent : List Command} (hsent : stream.sent = command :: sent) :
    ((d.setStream i { stream with sent }).addReceived stream.nodeId command).Conserved := by
  let stream' : CommandStream := { stream with sent }
  intro n
  change d.accepted n = record d.received stream.nodeId command n ++
    (d.setStream i stream').inTransit n ++ d.queued n
  rw [inTransit_setStream stream' hd hi hintact rfl n, record]
  split_ifs with hn
  · have hnew : stream'.inTransit n = sent ++ stream.handler.held := if_pos ⟨hn.symm, hintact⟩
    have haccepted := h stream.nodeId
    rw [inTransit_of_intact hd hi hintact, CommandStream.carries, hsent] at haccepted
    rw [hnew, hn, haccepted]
    simp only [List.append_assoc, List.cons_append, List.nil_append]
  · exact h n

/-- A move leads from conserved commands to conserved commands exactly if it loses none. -/
theorem conserved_step (hd : d.WellFormed) (h : d.Conserved) {mv : DeliveryMove}
    (hst : exec d mv = some d') : d'.Conserved ↔ d.KeepsCommands mv := by
  cases effect hst with
  | register hnone =>
    exact iff_of_true (h.congr (Manager.getD_newCommandQueue hnone) (fun _ => rfl) rfl rfl) trivial
  | send => exact iff_of_true (h.send _ _) trivial
  | @listen nodeId =>
    refine iff_of_true (h.congr (d.manager.getD_listenForCommands nodeId) (fun n => ?_) rfl rfl)
      trivial
    have hnew : (⟨nodeId, true, true, .checking, []⟩ : CommandStream).inTransit n = [] := ite_self _
    rw [inTransit, List.flatMap_append, List.flatMap_singleton, hnew, List.append_nil, inTransit]
  | disconnect hi => exact conserved_disconnect hd h hi
  | notice hi hbroken => exact iff_of_true (h.of_broken hi hbroken hbroken) trivial
  | @checkActive i stream hi hchecking =>
    refine iff_of_true (h.of_same hi fun n => ?_) trivial
    simp only [CommandStream.inTransit, CommandStream.carries, hchecking, StreamHandler.held]
  | @checkEnded i stream hi hended =>
    refine iff_of_true (h.congr (fun _ => rfl) (fun n => inTransit_eraseIdx hi ?_) rfl rfl) trivial
    refine CommandStream.inTransit_of_broken ?_ n
    by_contra hintact
    have hactive := hd.active stream (List.mem_of_getElem? hi) (by simpa using hintact)
    cases hended.symm.trans hactive
  | @timeout i stream hi hgetting =>
    refine iff_of_true (h.of_same hi fun n => ?_) trivial
    simp only [CommandStream.inTransit, CommandStream.carries, hgetting, StreamHandler.held]
  | get hi hgetting htake => exact conserved_get hd h hi hgetting htake
  | @yieldCommand i stream command hi hholding =>
    refine iff_of_true ?_ trivial
    by_cases hintact : stream.intact = true
    · refine h.of_same hi fun n => ?_
      simp only [CommandStream.inTransit, CommandStream.carries, hholding, hintact,
        StreamHandler.held, if_true, List.append_nil]
    · have hbroken : stream.intact = false := by simpa using hintact
      exact h.of_broken hi hbroken hbroken
  | receive hi hintact hsent => exact iff_of_true (conserved_receive hd h hi hintact hsent) trivial

/-- **Commands are delivered, exactly if broken streams have none.**  In all states of a run, the
commands accepted for each node are those that its agent has received, then those that an intact
stream or its handler carries, and then those that are queued, if and only if no stream breaks while
it or its handler carries a command, and no handler takes one after its stream has broken. -/
theorem conserved_iff {reg : Registry} {tr : List (DeliveryMove × Delivery)}
    (h : lts.Run (start reg) tr) :
    LTS.StatesMeet Conserved (start reg) tr ↔ LTS.StepsMeet KeepsCommands (start reg) tr :=
  h.statesMeet_iff_stepsMeet preserves_wellFormed (fun _ _ _ hd hI hst => conserved_step hd hI hst)
    ⟨List.Pairwise.nil, fun _ hs => absurd hs List.not_mem_nil⟩ (fun _ => rfl)

/-- The run in which a stream breaks while its handler waits, which then times out, and the next
one brings the commands. -/
theorem conserved_iff_reopened :
    let tr := LTS.runOf exec (start .empty)
      [.register "node-1", .listen "node-1", .send "node-1" (Sample.launch "job-1"), .check 0,
        .get 0, .yieldCommand 0, .check 0, .receive 0, .disconnect 0, .timeout 0, .notice 0,
        .check 0, .listen "node-1", .check 0, .send "node-1" (Sample.launch "job-2"), .get 0,
        .send "node-1" (Sample.launch "job-3"), .yieldCommand 0, .receive 0]
    LTS.StatesMeet Conserved (start .empty) tr ↔ LTS.StepsMeet KeepsCommands (start .empty) tr :=
  conserved_iff (LTS.run_runOf _ _ _)

/-- A stream breaks while its handler waits, the agent opens another one, and the first handler
takes the command. -/
theorem conserved_fails :
    ¬ ∀ (reg : Registry) (d : Delivery), lts.Reachable (start reg) d → d.Conserved := by
  intro hall
  obtain ⟨d, hd, hp⟩ := LTS.exists_of_exec exec (start .empty)
    [.register "node-1", .listen "node-1", .check 0, .disconnect 0, .listen "node-1", .check 1,
      .send "node-1" (Sample.launch "job-1"), .get 0, .yieldCommand 0]
    (fun d => !(d.accepted "node-1").isEmpty && (d.received "node-1").isEmpty &&
      (d.inTransit "node-1").isEmpty && (d.queued "node-1").isEmpty)
    (by decide +kernel)
  simp only [Bool.and_eq_true, List.isEmpty_iff] at hp
  have hnone := hall .empty d hd "node-1"
  rw [hp.1.1.2, hp.1.2, hp.2, List.append_nil] at hnone
  simp [hnone] at hp

end Delivery

end Dmlf
