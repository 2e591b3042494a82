import AtomSpaceCog.Channel.Progress
import AtomSpaceCog.Channel.Sources
import AtomSpaceCog.Foundation.Settling
import Mathlib.Order.RelClasses
import Mathlib.Order.WithBot

/-! # The channel comes to rest

Handlers put on the queue only requests whose own handlers do less (`Setting.Shallow`). Then each
step leaves less to do, and the steps of the threads, the workers and the server come to an end
in whatever order they are taken (`Config.spends`).
-/

namespace AtomSpaceCog

open Transition

variable {S : Setting}

/-- What is left to do for a thread, a barrier, a worker or the server. The elements are told apart
by how deep the work of their handlers goes. -/
inductive Task (S : Setting) where
  | script (script : Script S.toSignature S.Local)
  | fencing (next : Script S.toSignature S.Local)
  | asking (next : Str → Script S.toSignature S.Local)
  | drain
  | block
  | pending (depth : Nat)
  | sending (depth : Nat)
  | waiting (depth : Nat)
  | running (depth : Nat) (work : Work S.toSignature S.Local)
  | wire
  | held

namespace Task

/-- Operations come before elements, the deep ones first, and elements before what travels. -/
def level : Task S → WithTop Nat
  | script _ | fencing _ | asking _ => ⊤
  | pending depth => (4 * depth + 6 : Nat)
  | sending depth => (4 * depth + 5 : Nat)
  | waiting depth => (4 * depth + 4 : Nat)
  | running depth _ => (4 * depth + 3 : Nat)
  | drain | block => (2 : Nat)
  | wire => (1 : Nat)
  | held => (0 : Nat)

/-- What the next step may leave of an operation or of a handler. -/
inductive Rest : Task S → Task S → Prop where
  | connected {next} (isOpen) : Rest (script (next isOpen)) (script (.connected next))
  | read {next} (state) : Rest (script (next state)) (script (.read next))
  | enqueue {request next} : Rest (script next) (script (.enqueue request next))
  | barrier {next} : Rest (fencing next) (script (.barrier next))
  | finish {next} : Rest (script next) (fencing next)
  | synchro {msg next} : Rest (asking next) (script (.synchro msg next))
  | answer {next} (reply) : Rest (script (next reply)) (asking next)
  | closeConnection {next} : Rest (script next) (script (.closeConnection next))
  | insert {depth request next} : Rest (running depth next) (running depth (.insert request next))
  | touch {depth change next} (state) :
      Rest (running depth (next state)) (running depth (.touch change next))

/-- A task of a lower level, or what is left of the same one. -/
def Smaller (task other : Task S) : Prop :=
  Prod.Lex (· < ·) Rest (task.level, task) (other.level, other)

theorem Smaller.below {task other : Task S} (below : task.level < other.level) : task.Smaller other :=
  .left _ _ below

theorem Smaller.below_of_lt {task other : Task S} {low high : Nat} (own : task.level = low)
    (above : other.level = high) (less : low < high) : task.Smaller other := by
  refine .below ?_
  rw [own, above]
  exact WithTop.coe_lt_coe.mpr less

theorem Smaller.rest {task other : Task S} (rest : Rest task other) : task.Smaller other := by
  have same : task.level = other.level := by cases rest <;> rfl
  unfold Smaller
  rw [same]
  exact .right _ rest

theorem rest_wf : WellFounded (Rest (S := S)) := by
  have scripts : ∀ rest : Script S.toSignature S.Local, Acc Rest (script rest) := by
    intro rest
    induction rest with
    | exit how => exact ⟨_, fun _ less => by cases less⟩
    | connected next ih | read next ih => exact ⟨_, fun _ less => by cases less; exact ih _⟩
    | enqueue request next ih | closeConnection next ih =>
        exact ⟨_, fun _ less => by cases less; exact ih⟩
    | barrier next ih =>
        refine ⟨_, fun _ less => ?_⟩
        cases less
        exact ⟨_, fun _ less => by cases less; exact ih⟩
    | synchro msg next ih =>
        refine ⟨_, fun _ less => ?_⟩
        cases less
        exact ⟨_, fun _ less => by cases less; exact ih _⟩
  refine ⟨fun task => ?_⟩
  cases task with
  | script rest => exact scripts rest
  | fencing next => exact ⟨_, fun _ less => by cases less; exact scripts _⟩
  | asking next => exact ⟨_, fun _ less => by cases less; exact scripts _⟩
  | running depth work =>
      induction work with
      | done | stuck => exact ⟨_, fun _ less => by cases less⟩
      | insert request next ih => exact ⟨_, fun _ less => by cases less; exact ih⟩
      | touch change next ih => exact ⟨_, fun _ less => by cases less; exact ih _⟩
  | _ => exact ⟨_, fun _ less => by cases less⟩

theorem smaller_wf : WellFounded (Smaller (S := S)) :=
  InvImage.wf _ (WellFounded.prod_lex wellFounded_lt rest_wf)

end Task

/-- The member function that is called with the reply. -/
def Request.callback : Request S.toSignature → Option S.Callback
  | .enqueue _ _ _ handler => some handler
  | .enqueueNoreply _ => none

theorem Request.toMsg_callback (counter : UInt64) (request : Request S.toSignature) :
    (request.toMsg counter).1.callback = request.callback := by
  cases request <;> exact Msg.make_callback

/-- Handlers make only requests whose own handlers go less deep. -/
def Setting.Shallow (S : Setting) (depth : Option S.Callback → Nat) : Prop :=
  ∀ client callback data reply, (S.react client callback data reply).All fun request =>
    depth request.callback < depth (some callback)

/-! ## What is left to do -/

/-- What a thread has left to do. -/
def Caller.left : Caller S → Multiset (Task S)
  | .idle => 0
  | .running _ _ script => {.script script}
  | .fencing _ _ _ next => {.fencing next}
  | .asking _ _ _ next => {.asking next}

/-- What is left to do of a barrier. -/
def Fence.left (fence : Fence) : Multiset (Task S) :=
  (if fence.drained = none then {.drain} else 0) +
    ∑ worker : WorkerId, if fence.ran worker then 0 else {.block}

theorem Fence.level_of_mem {fence : Fence} {task : Task S} (member : task ∈ fence.left) :
    task.level = (2 : Nat) := by
  rcases Multiset.mem_add.mp member with drain | block
  · split at drain
    · rw [Multiset.mem_singleton.mp drain]
      rfl
    · exact absurd drain (Multiset.notMem_zero task)
  · obtain ⟨worker, -, block⟩ := Multiset.mem_sum.mp block
    split at block
    · exact absurd block (Multiset.notMem_zero task)
    · rw [Multiset.mem_singleton.mp block]
      rfl

variable (depth : Option S.Callback → Nat)

/-- What a worker has left to do. -/
def Worker.left : Worker S → Multiset (Task S)
  | .idle => 0
  | .sending entry => {.sending (depth entry.value.callback)}
  | .waiting entry => {.waiting (depth entry.value.callback)}
  | .running entry rest => {.running (depth entry.value.callback) rest}

/-- The sockets of the workers and of the first threads. -/
def sockets (bound : Nat) : Finset SockId :=
  Finset.univ.image SockId.worker ∪ (Finset.range bound).image SockId.user

namespace Config

variable (bound : Nat) (s : Config S)

def callersLeft : Multiset (Task S) := ∑ thread ∈ Finset.range bound, (s.caller thread).left

def fencesLeft : Multiset (Task S) := ∑ number ∈ Finset.range s.fences, (s.fence number).left

def pendingLeft : Multiset (Task S) :=
  Multiset.ofList (s.pending.map fun entry => Task.pending (depth entry.value.callback))

def workersLeft : Multiset (Task S) := ∑ worker : WorkerId, (s.worker worker).left depth

/-- What is left to do on a socket; the block at which it is held counts less. -/
def sockLeft (sock : SockId) : Multiset (Task S) :=
  if s.held sock then {.held} + Multiset.replicate ((s.inbox sock).length - 1) .wire
  else Multiset.replicate (s.inbox sock).length .wire

def socketsLeft : Multiset (Task S) := ∑ sock ∈ sockets bound, s.sockLeft sock

/-- What is left to do for all of them. -/
def left : Multiset (Task S) :=
  s.callersLeft bound + s.fencesLeft + s.pendingLeft depth + s.workersLeft depth + s.socketsLeft bound

variable {depth bound s} {next : Config S}

/-- A step takes a task, and leaves smaller ones here and there. -/
theorem spent_of_parts (task : Task S) {c f p w i c' f' p' w' i' : Multiset (Task S)}
    (callers : next.callersLeft bound + c ≤ s.callersLeft bound + c')
    (fences : next.fencesLeft + f ≤ s.fencesLeft + f')
    (pending : next.pendingLeft depth + p ≤ s.pendingLeft depth + p')
    (workers : next.workersLeft depth + w ≤ s.workersLeft depth + w')
    (sockets : next.socketsLeft bound + i ≤ s.socketsLeft bound + i')
    (taken : c + f + p + w + i = {task})
    (smaller : ∀ each ∈ c' + f' + p' + w' + i', each.Smaller task) :
    Spent Task.Smaller (next.left depth bound) (s.left depth bound) := by
  classical
  refine ⟨task, c' + f' + p' + w' + i', smaller, ?_⟩
  rw [← taken, Multiset.le_iff_count]
  intro each
  have callers := Multiset.le_iff_count.mp callers each
  have fences := Multiset.le_iff_count.mp fences each
  have pending := Multiset.le_iff_count.mp pending each
  have workers := Multiset.le_iff_count.mp workers each
  have sockets := Multiset.le_iff_count.mp sockets each
  simp only [left, Multiset.count_add] at *
  omega

/-- A part in which nothing changes. -/
theorem unchanged (tasks : Multiset (Task S)) : tasks + 0 ≤ tasks + 0 := le_rfl

/-- The threads from some number on are idle. -/
def Within (bound : Nat) (s : Config S) : Prop := ∀ thread, bound ≤ thread → s.caller thread = .idle

theorem Within.lt (within : s.Within bound) {thread : ThreadId} (busy : s.caller thread ≠ .idle) :
    thread < bound := by
  by_contra outside
  exact busy (within thread (Nat.le_of_not_lt outside))

/-- A thread moves. -/
theorem callersLeft_move (within : s.Within bound) {thread : ThreadId} {before caller : Caller S}
    (here : s.caller thread = before) (busy : before ≠ .idle)
    (callers : next.caller = Function.update s.caller thread caller) :
    next.callersLeft bound + before.left ≤ s.callersLeft bound + caller.left := by
  refine sum_add_le_sum_add (Finset.mem_range.mpr (within.lt (here ▸ busy)))
    (fun other _ different => ?_) ?_
  · rw [callers, Function.update_of_ne different]
  · rw [callers, Function.update_self, here]
    exact (add_comm _ _).le

/-- A worker moves. -/
theorem workersLeft_move {worker : WorkerId} {before state : Worker S} (here : s.worker worker = before)
    (workers : next.worker = Function.update s.worker worker state) :
    next.workersLeft depth + before.left depth ≤ s.workersLeft depth + state.left depth := by
  refine sum_add_le_sum_add (Finset.mem_univ worker) (fun other _ different => ?_) ?_
  · rw [workers, Function.update_of_ne different]
  · rw [workers, Function.update_self, here]
    exact (add_comm _ _).le

/-- The records of the barriers change in nothing that is left to do. -/
theorem fencesLeft_congr (fences : next.fences = s.fences)
    (same : ∀ number, ((next.fence number).left : Multiset (Task S)) = (s.fence number).left) :
    next.fencesLeft + 0 ≤ s.fencesLeft + 0 := by
  rw [fencesLeft, fencesLeft, fences]
  simp only [same]
  exact le_rfl

/-- The record of a barrier changes. -/
theorem fencesLeft_set {number : Nat} (used : number < s.fences) {record : Fence}
    (fence : next.fence = Function.update s.fence number record) (fences : next.fences = s.fences)
    {taken : Multiset (Task S)} (here : record.left + taken ≤ (s.fence number).left) :
    next.fencesLeft + taken ≤ s.fencesLeft + 0 := by
  rw [fencesLeft, fences]
  refine sum_add_le_sum_add (Finset.mem_range.mpr used) (fun other _ different => ?_) ?_
  · rw [fence, Function.update_of_ne different]
  · rw [fence, Function.update_self, add_zero]
    exact here

/-- What is on a socket, or whether it is held, changes. -/
theorem socketsLeft_set {sock : SockId} (inside : sock ∈ sockets bound)
    (inbox : ∀ other ≠ sock, next.inbox other = s.inbox other)
    (held : ∀ other ≠ sock, next.held other = s.held other) {taken given : Multiset (Task S)}
    (here : next.sockLeft sock + taken ≤ s.sockLeft sock + given) :
    next.socketsLeft bound + taken ≤ s.socketsLeft bound + given := by
  refine sum_add_le_sum_add inside (fun other _ different => ?_) here
  rw [sockLeft, sockLeft, inbox other different, held other different]

theorem mem_sockets_worker (worker : WorkerId) : SockId.worker worker ∈ sockets bound :=
  Finset.mem_union_left _ (Finset.mem_image_of_mem _ (Finset.mem_univ worker))

theorem mem_sockets_user {thread : ThreadId} (inside : thread < bound) :
    SockId.user thread ∈ sockets bound :=
  Finset.mem_union_right _ (Finset.mem_image_of_mem _ (Finset.mem_range.mpr inside))

/-- A message is put on a socket. -/
theorem socketsLeft_push {sock : SockId} (inside : sock ∈ sockets bound) {wire : Wire S.toSignature}
    (inbox : next.inbox = Function.update s.inbox sock (s.inbox sock ++ [wire]))
    (held : next.held = s.held) : next.socketsLeft bound + 0 ≤ s.socketsLeft bound + {.wire} := by
  refine socketsLeft_set inside (fun other different => ?_) (fun other _ => by rw [held]) ?_
  · rw [inbox, Function.update_of_ne different]
  · have one : ({.wire} : Multiset (Task S)) = Multiset.replicate 1 .wire := rfl
    rw [add_zero, sockLeft, sockLeft, inbox, held, Function.update_self, List.length_append, one]
    split
    · rw [add_assoc, ← Multiset.replicate_add]
      refine add_le_add_right ((Multiset.replicate_le_replicate _).mpr ?_) _
      rw [List.length_singleton]
      omega
    · rw [← Multiset.replicate_add]
      exact le_rfl

/-- A request is put on the queue, unless it is there already. -/
theorem pendingLeft_insert (source : Option S.Op) (request : Request S.toSignature) :
    (s.insert source request).pendingLeft depth + 0 ≤
      s.pendingLeft depth + {.pending (depth request.callback)} := by
  rw [pendingLeft, pendingLeft, insert_pending, add_zero]
  rcases Dedup.offer_cases Msg.Equivalent s.pending s.calls.length (request.toMsg s.counter).1 with
    ⟨twin, -, -, same, -⟩ | ⟨-, same, -⟩
  · rw [same]
    exact Multiset.le_add_right _ _
  · rw [same, List.map_append, ← Multiset.coe_add]
    refine add_le_add_right ?_ _
    rw [List.map_singleton, Request.toMsg_callback]
    exact le_rfl

/-- An element is taken from the queue. -/
theorem pendingLeft_take {entry : Entry S.toSignature} (member : entry ∈ s.pending)
    (pending : next.pending = s.pending.filter fun other => other.tag ≠ entry.tag) :
    next.pendingLeft depth + {.pending (depth entry.value.callback)} ≤ s.pendingLeft depth + 0 := by
  let all : Multiset (Entry S.toSignature) := s.pending
  have own : {entry} ≤ all.filter fun other => ¬ other.tag ≠ entry.tag :=
    Multiset.singleton_le.mpr (Multiset.mem_filter.mpr ⟨member, not_not.mpr rfl⟩)
  have kept : (all.filter fun other => other.tag ≠ entry.tag) + {entry} ≤ all :=
    (add_le_add_right own _).trans_eq (Multiset.filter_add_not _ _)
  have mapped := Multiset.map_le_map
    (f := fun other : Entry S.toSignature => Task.pending (S := S) (depth other.value.callback)) kept
  rw [Multiset.map_add, Multiset.map_singleton] at mapped
  rw [pendingLeft, pendingLeft, pending, add_zero]
  exact mapped

/-- The first message on a socket is there because of a worker or of a thread that is busy. -/
theorem mem_sockets (regular : s.Regular) (within : s.Within bound) {sock : SockId}
    {wire : Wire S.toSignature} {rest : List (Wire S.toSignature)}
    (first : s.inbox sock = wire :: rest) : sock ∈ sockets bound := by
  have inside : wire ∈ s.inbox sock := by
    rw [first]
    exact List.mem_cons_self
  cases sock with
  | worker worker => exact mem_sockets_worker worker
  | user thread =>
      refine mem_sockets_user (within.lt fun idle => ?_)
      have owed : s.owed (.user thread) = [] := by
        rw [regular.paired, awaited, idle]
        rfl
      cases wire with
      | request entry =>
          obtain ⟨⟨worker, no⟩, -⟩ := regular.synced.wired.request _ entry inside
          cases no
      | block id number =>
          obtain ⟨-, -, worker, no, -⟩ := regular.synced.wired.block _ id number inside
          cases no
      | synchro other msg =>
          rw [Config.owed, first] at owed
          exact absurd (List.append_eq_nil_iff.mp owed).2 (by simp [Wire.expects])

/-- The rest of the work of each handler goes less deep than the handler. -/
def Shallow (depth : Option S.Callback → Nat) (s : Config S) : Prop :=
  ∀ worker entry rest, s.worker worker = .running entry rest →
    rest.All fun request => depth request.callback < depth entry.value.callback

theorem Shallow.step (shallow : s.Shallow depth) (handlers : S.Shallow depth) {action : Action S}
    (taken : s.step action = some next) : next.Shallow depth := by
  have moved : ∀ {worker : WorkerId} {state : Worker S},
      next.worker = Function.update s.worker worker state →
      (∀ entry rest, state = .running entry rest →
        rest.All fun request => depth request.callback < depth entry.value.callback) →
      next.Shallow depth := by
    intro worker state workers own other entry rest there
    rw [workers] at there
    by_cases same : other = worker
    · subst same
      exact own entry rest (by rwa [Function.update_self] at there)
    · rw [Function.update_of_ne same] at there
      exact shallow other entry rest there
  cases moves_of_step taken with
  | take => exact moved rfl fun _ _ same => by cases same
  | @send worker entry here =>
      refine moved rfl fun _ _ same => ?_
      split at same <;> cases same
  | @receive worker entry reply rest here arrived =>
      refine moved rfl fun other rest same => ?_
      obtain ⟨rfl, rfl⟩ := Worker.running.inj same
      unfold callback
      split
      · next client callback own called =>
          rw [called]
          exact handlers client callback entry.value.data reply.text
      · trivial
  | rest => exact moved rfl fun _ _ same => by cases same
  | @workInsert worker entry request rest here =>
      refine moved rfl fun other rest same => ?_
      obtain ⟨rfl, rfl⟩ := Worker.running.inj same
      exact (shallow worker entry _ here).2
  | @workTouch worker entry change rest here =>
      refine moved rfl fun other rest same => ?_
      obtain ⟨rfl, rfl⟩ := Worker.running.inj same
      exact shallow worker entry _ here s.locals
  | _ => exact shallow

/-- What the count of the tasks relies on. -/
structure Counts (depth : Option S.Callback → Nat) (bound : Nat) (s : Config S) : Prop where
  regular : s.Regular
  tended : s.Tended
  shallow : s.Shallow depth
  within : s.Within bound

theorem Within.step (within : s.Within bound) {action : Action S} (carries : action.carriesOn = true)
    (taken : s.step action = some next) : next.Within bound := by
  have moved : ∀ {thread : ThreadId} {before caller : Caller S}, s.caller thread = before →
      before ≠ .idle → next.caller = Function.update s.caller thread caller → next.Within bound := by
    intro thread before caller here busy callers other outside
    have different : other ≠ thread := ((within.lt (here ▸ busy)).trans_le outside).ne'
    rw [callers, Function.update_of_ne different]
    exact within other outside
  cases moves_of_step taken with
  | start => cases carries
  | exit here | connected here | read here | enqueue here | ask here | closeConnection here
  | barrier here | finish here | answer here => exact moved here (fun no => by cases no) rfl
  | _ => exact within

/-- What is left of the barriers with one more. -/
theorem fencesLeft_barrier {record : Fence} (fences : next.fences = s.fences + 1)
    (fence : next.fence = Function.update s.fence s.fences record) :
    next.fencesLeft + 0 ≤ s.fencesLeft + record.left := by
  rw [fencesLeft, fences, Finset.sum_range_succ, fence, Function.update_self, add_zero]
  refine add_le_add_left (Finset.sum_le_sum fun number member => ?_) _
  rw [Function.update_of_ne (Finset.mem_range.mp member).ne]

/-- One worker less has to run the block. -/
theorem left_run {fence : Fence} {worker : WorkerId} (notRan : fence.ran worker = false) :
    { fence with ran := Function.update fence.ran worker true }.left + {.block} ≤
      (fence.left : Multiset (Task S)) := by
  rw [Fence.left, Fence.left, add_assoc]
  refine add_le_add_right ?_ _
  have sum : (∑ each : WorkerId, if Function.update fence.ran worker true each then 0 else {.block}) +
      {.block} ≤ (∑ each : WorkerId, if fence.ran each then (0 : Multiset (Task S)) else {.block}) + 0 :=
    sum_add_le_sum_add (Finset.mem_univ worker) (fun other _ different => by simp [different])
      (by simp [notRan])
  rwa [add_zero] at sum

/-- A thread goes on with its operation. -/
theorem spent_caller (within : s.Within bound) {thread : ThreadId} {before caller : Caller S}
    (here : s.caller thread = before) (callers : next.caller = Function.update s.caller thread caller)
    {task : Task S} (was : before.left = {task}) (top : task.level = ⊤)
    (rest : ∀ each ∈ caller.left, each.Rest task) {f p i : Multiset (Task S)}
    (fences : next.fencesLeft + 0 ≤ s.fencesLeft + f)
    (pending : next.pendingLeft depth + 0 ≤ s.pendingLeft depth + p)
    (workers : next.worker = s.worker)
    (sockets : next.socketsLeft bound + 0 ≤ s.socketsLeft bound + i)
    (below : ∀ each ∈ f + p + i, each.level < ⊤) :
    Spent Task.Smaller (next.left depth bound) (s.left depth bound) := by
  have busy : before ≠ .idle := by
    rintro rfl
    exact Multiset.singleton_ne_zero task was.symm
  have same : next.workersLeft depth + 0 ≤ s.workersLeft depth + 0 := by
    rw [workersLeft, workers]
    exact le_rfl
  refine spent_of_parts task (callersLeft_move within here busy callers) fences pending same sockets
    (by rw [was]; rfl) fun each member => ?_
  rw [add_zero, add_assoc, add_assoc] at member
  rcases Multiset.mem_add.mp member with own | other
  · exact .rest (rest each own)
  · rw [← add_assoc] at other
    exact .below ((below each other).trans_eq top.symm)

/-- A worker goes on with its element. -/
theorem spent_worker {worker : WorkerId} {before state : Worker S} (here : s.worker worker = before)
    (workers : next.worker = Function.update s.worker worker state) (callers : next.caller = s.caller)
    (fences : next.fences = s.fences) (fence : next.fence = s.fence) {task : Task S}
    (was : before.left depth = {task}) {p i : Multiset (Task S)}
    (pending : next.pendingLeft depth + 0 ≤ s.pendingLeft depth + p)
    (sockets : next.socketsLeft bound + 0 ≤ s.socketsLeft bound + i)
    (smaller : ∀ each ∈ p + state.left depth + i, each.Smaller task) :
    Spent Task.Smaller (next.left depth bound) (s.left depth bound) := by
  have same : next.callersLeft bound + 0 ≤ s.callersLeft bound + 0 := by
    rw [callersLeft, callers]
    exact le_rfl
  have still : next.fencesLeft + 0 ≤ s.fencesLeft + 0 := by
    rw [fencesLeft, fences, fence]
    exact le_rfl
  refine spent_of_parts task same still pending (workersLeft_move here workers) sockets ?_
    fun each member => ?_
  · rw [was]
    rfl
  · rw [add_zero, zero_add] at member
    exact smaller each member

/-- A barrier goes on. -/
theorem spent_fence (task : Task S) {number : Nat} (used : number < s.fences) {record : Fence}
    (callers : next.caller = s.caller) (fences : next.fences = s.fences)
    (fence : next.fence = Function.update s.fence number record) (pending : next.pending = s.pending)
    (workers : next.worker = s.worker) (here : record.left + {task} ≤ (s.fence number).left)
    {i : Multiset (Task S)} (sockets : next.socketsLeft bound + 0 ≤ s.socketsLeft bound + i)
    (smaller : ∀ each ∈ i, each.Smaller task) :
    Spent Task.Smaller (next.left depth bound) (s.left depth bound) := by
  have threads : next.callersLeft bound + 0 ≤ s.callersLeft bound + 0 := by
    rw [callersLeft, callers]
    exact le_rfl
  have elements : next.pendingLeft depth + 0 ≤ s.pendingLeft depth + 0 := by
    rw [pendingLeft, pending]
    exact le_rfl
  have same : next.workersLeft depth + 0 ≤ s.workersLeft depth + 0 := by
    rw [workersLeft, workers]
    exact le_rfl
  refine spent_of_parts task threads (fencesLeft_set used fence fences here) elements same sockets rfl
    fun each member => ?_
  rw [zero_add, zero_add, zero_add, zero_add] at member
  exact smaller each member

/-- The server goes on with a socket. -/
theorem spent_socket {task : Task S} {i : Multiset (Task S)} (callers : next.caller = s.caller)
    (fences : next.fences = s.fences) (fence : next.fence = s.fence) (pending : next.pending = s.pending)
    (workers : next.worker = s.worker)
    (sockets : next.socketsLeft bound + {task} ≤ s.socketsLeft bound + i)
    (smaller : ∀ each ∈ i, each.Smaller task) :
    Spent Task.Smaller (next.left depth bound) (s.left depth bound) := by
  refine ⟨task, i, smaller, ?_⟩
  have others : next.callersLeft bound + next.fencesLeft + next.pendingLeft depth +
      next.workersLeft depth = s.callersLeft bound + s.fencesLeft + s.pendingLeft depth +
        s.workersLeft depth := by
    rw [callersLeft, fencesLeft, pendingLeft, workersLeft, callers, fences, fence, pending, workers]
    rfl
  rw [left, left, others, add_assoc _ (next.socketsLeft bound), add_assoc _ (s.socketsLeft bound)]
  exact add_le_add_right sockets _

/-- The server has passed a message on a socket. -/
theorem socketsLeft_serve {sock : SockId} (inside : sock ∈ sockets bound) (free : s.held sock = false)
    {wire : Wire S.toSignature} {rest : List (Wire S.toSignature)} (first : s.inbox sock = wire :: rest)
    (inbox : next.inbox = Function.update s.inbox sock rest) (held : next.held = s.held) :
    next.socketsLeft bound + {.wire} ≤ s.socketsLeft bound + 0 := by
  refine socketsLeft_set inside (fun other different => ?_) (fun other _ => by rw [held]) ?_
  · rw [inbox, Function.update_of_ne different]
  · simp only [sockLeft, held, free, inbox, Function.update_self, first, List.length_cons,
      Multiset.replicate_succ, add_zero, Bool.false_eq_true, if_false]
    rw [add_comm, Multiset.singleton_add]

/-- The server has reached a block. -/
theorem socketsLeft_arrive {sock : SockId} (inside : sock ∈ sockets bound) (free : s.held sock = false)
    {wire : Wire S.toSignature} {rest : List (Wire S.toSignature)} (first : s.inbox sock = wire :: rest)
    (inbox : next.inbox = s.inbox) (held : next.held = Function.update s.held sock true) :
    next.socketsLeft bound + {.wire} ≤ s.socketsLeft bound + {.held} := by
  refine socketsLeft_set inside (fun other _ => by rw [inbox]) (fun other different => ?_) ?_
  · rw [held, Function.update_of_ne different]
  · simp only [sockLeft, held, free, inbox, Function.update_self, first, List.length_cons,
      Multiset.replicate_succ, Nat.add_sub_cancel, Bool.false_eq_true, if_false, if_true]
    rw [← Multiset.singleton_add]
    exact le_of_eq (by ac_rfl)

/-- The server serves sockets again. -/
theorem socketsLeft_release {id : UInt64} {socks : List SockId} (enough : socks.length = nthreads)
    (wired : s.Wired) (reached : ∀ sock ∈ socks, s.HeldAt id sock)
    (inbox : next.inbox = fun sock => if sock ∈ socks then (s.inbox sock).tail else s.inbox sock)
    (held : next.held = fun sock => if sock ∈ socks then false else s.held sock) :
    next.socketsLeft bound + {.held} ≤ s.socketsLeft bound + 0 := by
  have passed : ∀ sock ∈ socks, next.sockLeft sock + {.held} ≤ s.sockLeft sock := by
    intro sock member
    obtain ⟨number, rest, first⟩ := (reached sock member).first
    simp only [sockLeft, held, inbox, if_pos member, (reached sock member).1, first, List.tail_cons,
      List.length_cons, Nat.add_sub_cancel, Bool.false_eq_true, if_false, if_true]
    exact (add_comm _ _).le
  have others : ∀ sock, next.sockLeft sock ≤ s.sockLeft sock := by
    intro sock
    by_cases member : sock ∈ socks
    · exact (Multiset.le_add_right _ _).trans (passed sock member)
    · simp only [sockLeft, held, inbox, if_neg member]
      exact le_rfl
  obtain ⟨sock, member⟩ : ∃ sock, sock ∈ socks :=
    List.exists_mem_of_ne_nil socks (List.ne_nil_of_length_pos (enough ▸ by decide))
  obtain ⟨number, rest, first⟩ := (reached sock member).first
  obtain ⟨-, -, worker, rfl, -⟩ := wired.block sock id number (by rw [first]; simp)
  rw [socketsLeft, socketsLeft, ← Finset.sum_erase_add _ _ (mem_sockets_worker worker),
    ← Finset.sum_erase_add _ (fun sock => s.sockLeft sock) (mem_sockets_worker worker), add_assoc,
    add_zero]
  exact add_le_add (Finset.sum_le_sum fun sock _ => others sock) (passed _ member)

/-- Every step of the threads, the workers and the server leaves less to do. -/
theorem spends (handlers : S.Shallow depth) (bound : Nat) :
    Spends Config.step (fun (_ : Config S) action => action.carriesOn = true) (Counts depth bound)
      Task.Smaller (left depth bound) where
  wf := Task.smaller_wf
  keeps carries counts taken :=
    ⟨counts.regular.step taken, counts.tended.step taken, counts.shallow.step handlers taken,
      counts.within.step carries taken⟩
  spends {s action next} carries counts taken := by
    obtain ⟨regular, tended, shallow, within⟩ := counts
    have none : ∀ each ∈ (0 + 0 + 0 : Multiset (Task S)), each.level < ⊤ :=
      fun each member => absurd member (Multiset.notMem_zero each)
    cases moves_of_step taken with
    | start | edit => cases carries
    | exit here =>
        exact spent_caller within here rfl rfl rfl
          (fun each member => absurd member (Multiset.notMem_zero each)) (unchanged _) (unchanged _) rfl (unchanged _) none
    | connected here =>
        refine spent_caller within here rfl rfl rfl (fun each member => ?_)
          (unchanged _) (unchanged _) rfl (unchanged _) none
        exact Multiset.mem_singleton.mp member ▸ .connected _
    | read here =>
        refine spent_caller within here rfl rfl rfl (fun each member => ?_)
          (unchanged _) (unchanged _) rfl (unchanged _) none
        exact Multiset.mem_singleton.mp member ▸ .read _
    | closeConnection here =>
        refine spent_caller within here rfl rfl rfl (fun each member => ?_)
          (unchanged _) (unchanged _) rfl (unchanged _) none
        exact Multiset.mem_singleton.mp member ▸ .closeConnection
    | answer here =>
        refine spent_caller within here rfl rfl rfl (fun each member => ?_)
          (unchanged _) (unchanged _) rfl (unchanged _) none
        exact Multiset.mem_singleton.mp member ▸ .answer _
    | @finish thread op since number rest here drained ran =>
        refine spent_caller (f := 0) within here rfl rfl rfl (fun each member => ?_) ?_ (unchanged _) rfl
          (unchanged _) none
        · exact Multiset.mem_singleton.mp member ▸ .finish
        · refine fencesLeft_congr ?_ fun other => ?_
          · rfl
          · by_cases own : other = number
            · subst own
              simp [setFence, setCaller, Fence.left]
            · simp [setFence, setCaller, own]
    | @enqueue thread op since request rest here opened plain =>
        refine spent_caller within here rfl rfl rfl (fun each member => ?_) (unchanged _)
          (pendingLeft_insert (some op) request) rfl (unchanged _) fun each member => ?_
        · exact Multiset.mem_singleton.mp member ▸ .enqueue
        · rw [zero_add, add_zero] at member
          exact Multiset.mem_singleton.mp member ▸ WithTop.coe_lt_top _
    | @ask thread op since msg rest here opened =>
        refine spent_caller within here rfl rfl rfl (fun each member => ?_) (unchanged _) (unchanged _) rfl
          (socketsLeft_push (mem_sockets_user (within.lt ?_)) rfl rfl) fun each member => ?_
        · exact Multiset.mem_singleton.mp member ▸ .synchro
        · rw [here]
          exact fun no => by cases no
        · rw [zero_add, zero_add] at member
          exact Multiset.mem_singleton.mp member ▸ WithTop.coe_lt_top _
    | @barrier thread id op since rest here opened fresh =>
        refine spent_caller
          (f := Fence.left ⟨id, s.calls.length, Option.none, fun _ => false, Option.none⟩) within here rfl rfl rfl (fun each member => ?_) ?_ (unchanged _) rfl (unchanged _)
          fun each member => ?_
        · exact Multiset.mem_singleton.mp member ▸ .barrier
        · exact fencesLeft_barrier rfl rfl
        · rw [add_zero, add_zero] at member
          exact Fence.level_of_mem member ▸ WithTop.coe_lt_top _
    | @drain thread op since number rest here draining handled =>
        obtain ⟨used, -⟩ := regular.owned.running thread number (by rw [here]; rfl)
        refine spent_fence .drain used rfl rfl rfl rfl rfl ?_ (unchanged _) fun each member =>
          absurd member (Multiset.notMem_zero each)
        · rw [Fence.left, Fence.left, if_pos draining, if_neg (by simp), zero_add, add_comm]
    | @block worker number idle known drained notRan =>
        refine spent_fence .block known rfl rfl rfl rfl rfl (left_run notRan)
          (socketsLeft_push (mem_sockets_worker worker) rfl rfl) fun each member => ?_
        rw [Multiset.mem_singleton.mp member]
        exact .below_of_lt rfl rfl (by decide)
    | @take worker number entry idle member numbered free =>
        subst numbered
        refine spent_of_parts (.pending (depth entry.value.callback)) (unchanged _) (unchanged _)
          (pendingLeft_take member rfl) (workersLeft_move idle rfl) (unchanged _) rfl fun each inside => ?_
        rw [zero_add, zero_add, zero_add, add_zero] at inside
        rw [Multiset.mem_singleton.mp inside]
        exact .below_of_lt rfl rfl (by omega)
    | @send worker entry here =>
        refine spent_worker here rfl rfl rfl rfl rfl (unchanged _)
          (socketsLeft_push (mem_sockets_worker worker) rfl rfl) fun each member => ?_
        rw [zero_add] at member
        rcases Multiset.mem_add.mp member with own | wire
        · split at own
          · exact absurd own (Multiset.notMem_zero each)
          · rw [Multiset.mem_singleton.mp own]
            exact .below_of_lt rfl rfl (by omega)
        · rw [Multiset.mem_singleton.mp wire]
          exact .below_of_lt rfl rfl (by omega)
    | @receive worker entry reply rest here arrived =>
        refine spent_worker here rfl rfl rfl rfl rfl (unchanged _) (unchanged _) fun each member => ?_
        rw [zero_add, add_zero] at member
        rw [Multiset.mem_singleton.mp member]
        exact .below_of_lt rfl rfl (by omega)
    | rest here =>
        exact spent_worker here rfl rfl rfl rfl rfl (unchanged _) (unchanged _) fun each member =>
          absurd member (Multiset.notMem_zero each)
    | @workInsert worker entry request rest here plain =>
        refine spent_worker here rfl rfl rfl rfl rfl (pendingLeft_insert Option.none request) (unchanged _)
          fun each member => ?_
        rw [add_zero] at member
        rcases Multiset.mem_add.mp member with inserted | own
        · rw [Multiset.mem_singleton.mp inserted]
          have less := (shallow worker entry _ here).1
          exact .below_of_lt rfl rfl (by omega)
        · rw [Multiset.mem_singleton.mp own]
          exact .rest .insert
    | workTouch here =>
        refine spent_worker here rfl rfl rfl rfl rfl (unchanged _) (unchanged _) fun each member => ?_
        rw [zero_add, add_zero] at member
        rw [Multiset.mem_singleton.mp member]
        exact .rest (.touch _)
    | serve free first =>
        exact spent_socket rfl rfl rfl rfl rfl
          (socketsLeft_serve (mem_sockets regular within first) free first rfl rfl)
          fun each member => absurd member (Multiset.notMem_zero each)
    | serveSynchro free first =>
        exact spent_socket rfl rfl rfl rfl rfl
          (socketsLeft_serve (mem_sockets regular within first) free first rfl rfl)
          fun each member => absurd member (Multiset.notMem_zero each)
    | arrive first free =>
        refine spent_socket rfl rfl rfl rfl rfl
          (socketsLeft_arrive (mem_sockets regular within first) free first rfl rfl) fun each member => ?_
        rw [Multiset.mem_singleton.mp member]
        exact .below_of_lt rfl rfl (by decide)
    | release distinct enough reached =>
        exact spent_socket rfl rfl rfl rfl rfl
          (socketsLeft_release enough regular.synced.wired reached rfl rfl)
          fun each member => absurd member (Multiset.notMem_zero each)

/-- What is known of every state that a run reaches. -/
structure Reached (depth : Option S.Callback → Nat) (Holds : Option S.Op → Request S.toSignature → Prop)
    (s : Config S) : Prop where
  orderly : s.Orderly
  shallow : s.Shallow depth
  sourced : s.Sourced Holds
  within : ∃ bound, s.Within bound

variable {Holds : Option S.Op → Request S.toSignature → Prop}

theorem reached_initial (counter : UInt64) (space : S.Space) (locals : S.Local) :
    (Config.initial counter space locals).Reached depth Holds where
  orderly := orderly_initial counter space locals
  shallow _ _ _ there := by cases there
  sourced := sourced_initial counter space locals
  within := ⟨0, fun _ _ => rfl⟩

namespace Reached

variable {action : Action S}

theorem step (reached : s.Reached depth Holds) (handlers : S.Shallow depth) (makes : S.Makes Holds)
    (exclusive : s.Exclusive action) (taken : s.step action = some next) :
    next.Reached depth Holds where
  orderly := reached.orderly.step exclusive taken
  shallow := reached.shallow.step handlers taken
  sourced := reached.sourced.step makes taken
  within := by
    obtain ⟨bound, within⟩ := reached.within
    cases begins : action.carriesOn with
    | true => exact ⟨bound, within.step begins taken⟩
    | false =>
        cases moves_of_step taken with
        | edit => exact ⟨bound, within⟩
        | @start thread =>
            refine ⟨max bound (thread + 1), fun other outside => ?_⟩
            have different : other ≠ thread :=
              (Nat.lt_of_lt_of_le (Nat.lt_succ_self thread) ((le_max_right _ _).trans outside)).ne'
            simpa only [setCaller, Function.update_of_ne different] using
              within other ((le_max_left _ _).trans outside)
        | _ => cases begins

theorem exec (reached : s.Reached depth Holds) (handlers : S.Shallow depth) (makes : S.Makes Holds)
    {actions : List (Action S)} (exclusive : Meets Config.step Exclusive s actions)
    (run : Transition.exec Config.step s actions = some next) : next.Reached depth Holds :=
  exclusive.invariant (Reached depth Holds)
    (fun exclusive reached taken => reached.step handlers makes exclusive taken) reached run

/-- When nothing goes on, nothing is left to do. -/
theorem atRest (reached : s.Reached depth Holds)
    (plain : ∀ {source request}, Holds source request → isBarrier request.text = false)
    (still : s.Still) (opened : s.isOpen = true)
    (fine : ∀ worker entry, s.worker worker ≠ .running entry .stuck) : s.AtRest := by
  refine atRest_of_still reached.orderly still opened ?_ ?_ fine
  · exact fun worker entry request rest here => plain (reached.sourced.worker_all here).1
  · exact fun thread op since request rest here => plain (reached.sourced.caller_all here).1

/-- What goes on comes to an end. -/
theorem rests (reached : s.Reached depth Holds) (handlers : S.Shallow depth) :
    (¬ ∃ path : Nat → Config S, path 0 = s ∧ ∀ time, ∃ action : Action S,
      action.carriesOn = true ∧ (path time).step action = some (path (time + 1))) ∧
    ∃ more final, (∀ action ∈ more, action.carriesOn = true) ∧ Meets Config.step Exclusive s more ∧
      Transition.exec Config.step s more = some final ∧ final.Still := by
  obtain ⟨bound, within⟩ := reached.within
  have counts : s.Counts depth bound :=
    ⟨reached.orderly.regular, reached.orderly.tended, reached.shallow, within⟩
  refine ⟨(spends handlers bound).not_endless counts, ?_⟩
  have fewer : Spends Config.step
      (fun (s : Config S) action => action.carriesOn = true ∧ s.Exclusive action) (Counts depth bound) Task.Smaller (left depth bound) := (spends handlers bound).imp And.left
  obtain ⟨more, final, meets, run, still⟩ := fewer.exists_rest counts
  exact ⟨more, final, (meets.imp And.left).forall_of_exec run, meets.imp And.right, run,
    fun action carries exclusive => still action ⟨carries, exclusive⟩⟩

end Reached

end Config

end AtomSpaceCog
