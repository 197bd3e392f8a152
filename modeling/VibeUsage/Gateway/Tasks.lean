import Mathlib

/-!
# The tasks of the gateway

`handle` and `shutdown` of `services/codex_gateway/gateway.py` and `CodexClient.close` of
`codex_client.py`, as the event loop runs them. A request that is admitted has three tasks: the
handler, the operation `work()` and the watcher `_watch_disconnect`; a client that is being closed
has a fourth, which only `close` awaits and nothing cancels. A task runs from one await to the next
without interruption, and each constructor below is one such stretch of one task. A stretch that
comes back to the same await changes nothing and is left out.

To cancel a task is to raise `CancelledError` where it awaits, when it runs next. Where a task
awaits another, the other is cancelled in its place and the first resumes when that one is done.
Inside `close` a cancellation is remembered and raised at the end.
-/

namespace VibeUsage

/-- How a task ends. -/
inductive Outcome
  | returned
  | raised
  | cancelled

/-- Where the handler of a request awaits. -/
inductive HandlerPc
  /-- In `read_body`. -/
  | readBody
  /-- In `asyncio.wait`, before the headers are sent. -/
  | preflight
  /-- In `response.prepare`. -/
  | preparing
  /-- In `response.write(b" ")` or the `asyncio.wait` after it. -/
  | beating
  /-- In the `response.write` of the result, or in `write_eof`. -/
  | replying
  /-- In the `response.write` of an error, or in `write_eof`. -/
  | errorReply
  /-- In the `finally`, for the watcher. -/
  | joinWatcher
  /-- In the `finally`, for the operation. -/
  | joinOperation
  /-- In `client.close`. -/
  | closing
  | ended
deriving DecidableEq

/-- Where `work()` awaits. -/
inductive OperationPc
  /-- Not run yet. -/
  | created
  /-- In `client.__aenter__`. -/
  | entering
  /-- In the `close` of `client.__aenter__`, after a failure. -/
  | leaving
  /-- In the transcriber or in `client.complete_todo`. -/
  | working
  | done (outcome : Outcome)

/-- The task of `work()`, and whether it has been cancelled since it last ran. -/
structure Operation where
  pc : OperationPc
  cancelled : Bool

/-- The task of `_watch_disconnect`. -/
inductive Watcher
  | running (cancelled : Bool)
  | done

/-- A client that has been created: in use, with its close task running, or with that task done. -/
inductive CodexClient
  | inUse
  | closing
  | closed
deriving DecidableEq

/-- A request that has been admitted. -/
structure Handling where
  pc : HandlerPc
  /-- The handler has been cancelled since it last ran. -/
  cancelled : Bool
  /-- The same for the `asyncio.timeout` around its body. -/
  timedOut : Bool
  watcher : Option Watcher
  operation : Option Operation
  ready : Bool
  client : Option CodexClient

namespace Handling

/-- A handler that awaits the body. -/
def init : Handling :=
  { pc := .readBody, cancelled := false, timedOut := false, watcher := none, operation := none,
    ready := false, client := none }

/-- The operation has come to its end, or there is none. -/
def OperationDone (h : Handling) : Prop :=
  ∀ operation, h.operation = some operation → ∃ outcome, operation.pc = .done outcome

/-- No exception waits to be raised. -/
def Calm (h : Handling) : Prop := h.cancelled = false ∧ h.timedOut = false

/-- The exceptions have been raised. -/
def settle (h : Handling) : Handling := { h with cancelled := false, timedOut := false }

/-! ### The end of the handler -/

/-- `client.close()`, and the end when there is nothing to wait for. -/
def closeClient (h : Handling) : Handling :=
  match h.client with
  | none => { h with pc := .ended }
  | some .inUse => { h with pc := .closing, client := some .closing }
  | some .closing => { h with pc := .closing }
  | some .closed => { h with pc := .ended }

/-- `operation.cancel()` and `await operation`. -/
def endOperation (h : Handling) : Handling :=
  match h.operation with
  | none => h.closeClient
  | some ⟨.done _, _⟩ => h.closeClient
  | some ⟨pc, _⟩ => { h with pc := .joinOperation, operation := some ⟨pc, true⟩ }

/-- The `finally` of `handle`, up to its first await. -/
def cleanUp (h : Handling) : Handling :=
  match h.watcher with
  | some (.running _) => { h with pc := .joinWatcher, watcher := some (.running true) }
  | _ => h.endOperation

/-- `task.cancel()` of the handler. -/
def cancel (h : Handling) : Handling :=
  match h.pc with
  | .ended => h
  | .closing => h
  | .joinWatcher =>
    match h.watcher with
    | some (.running _) => { h with watcher := some (.running true) }
    | _ => h
  | .joinOperation => { h with operation := h.operation.map fun o ↦ { o with cancelled := true } }
  | _ => { h with cancelled := true }

/-- `operation` and `watcher` are created. -/
def start (h : Handling) : Handling :=
  { h with pc := .preflight, watcher := some (.running false), operation := some ⟨.created, false⟩ }

/-! ### The stretches of each task -/

/-- In the body of the `try`, where a cancellation is raised at the await. -/
def InBody : HandlerPc → Prop
  | .readBody | .preflight | .preparing | .beating | .replying | .errorReply => True
  | _ => False

/-- In the body of an `asyncio.timeout`. -/
def Timed : HandlerPc → Prop
  | .readBody | .preflight | .preparing | .beating | .replying => True
  | _ => False

/-- The handler runs up to its next await. -/
inductive HandlerStep : Handling → Handling → Prop
  /-- The body has been read and parsed. -/
  | bodyRead {h : Handling} (hpc : h.pc = .readBody) (hcalm : h.Calm) : HandlerStep h h.start
  /-- The operation ended before the client was ready. -/
  | endedEarly {h : Handling} (hpc : h.pc = .preflight) (hcalm : h.Calm) (hdone : h.OperationDone) :
      HandlerStep h h.cleanUp
  /-- The client is ready, and the headers are sent. -/
  | prepare {h : Handling} (hpc : h.pc = .preflight) (hcalm : h.Calm) (hready : h.ready = true)
      (hgoing : ¬ h.OperationDone) : HandlerStep h { h with pc := .preparing }
  | prepared {h : Handling} (hpc : h.pc = .preparing) (hcalm : h.Calm) :
      HandlerStep h { h with pc := .beating }
  /-- The operation returned, and its result is sent. -/
  | reply {h : Handling} {cancelled : Bool} (hpc : h.pc = .beating) (hcalm : h.Calm)
      (hdone : h.operation = some ⟨.done .returned, cancelled⟩) :
      HandlerStep h { h with pc := .replying }
  /-- The operation was cancelled. -/
  | abandoned {h : Handling} {cancelled : Bool} (hpc : h.pc = .beating) (hcalm : h.Calm)
      (hdone : h.operation = some ⟨.done .cancelled, cancelled⟩) : HandlerStep h h.cleanUp
  /-- The reply, or the error in its place, has been sent. -/
  | replied {h : Handling} (hpc : h.pc = .replying ∨ h.pc = .errorReply) (hcalm : h.Calm) :
      HandlerStep h h.cleanUp
  /-- An exception before the headers, or a lost connection. -/
  | failed {h : Handling} (hpc : InBody h.pc) (hpc' : h.pc ≠ .preflight) (hcalm : h.Calm) :
      HandlerStep h h.cleanUp
  /-- An exception after the headers, that of the operation among them. -/
  | failedLate {h : Handling} (hpc : h.pc = .preparing ∨ h.pc = .beating ∨ h.pc = .replying)
      (hcalm : h.Calm) : HandlerStep h { h with pc := .errorReply }
  /-- The cancellation is raised. -/
  | raiseCancelled {h : Handling} (hpc : InBody h.pc) (hcancelled : h.cancelled = true) :
      HandlerStep h h.settle.cleanUp
  /-- The timeout is raised, before the headers. -/
  | raiseTimeout {h : Handling}
      (hpc : h.pc = .readBody ∨ h.pc = .preflight ∨ h.pc = .preparing)
      (htimedOut : h.timedOut = true) (hcancelled : h.cancelled = false) :
      HandlerStep h h.settle.cleanUp
  /-- The timeout is raised, after the headers. -/
  | raiseTimeoutLate {h : Handling}
      (hpc : h.pc = .preparing ∨ h.pc = .beating ∨ h.pc = .replying)
      (htimedOut : h.timedOut = true) (hcancelled : h.cancelled = false) :
      HandlerStep h { h.settle with pc := .errorReply }
  | watcherJoined {h : Handling} (hpc : h.pc = .joinWatcher) (hdone : h.watcher = some .done) :
      HandlerStep h h.endOperation
  | operationJoined {h : Handling} (hpc : h.pc = .joinOperation) (hdone : h.OperationDone) :
      HandlerStep h h.closeClient
  | clientClosed {h : Handling} (hpc : h.pc = .closing) (hclosed : h.client = some .closed) :
      HandlerStep h { h with pc := .ended }

/-- The operation runs up to its next await. -/
inductive OperationStep : Handling → Handling → Prop
  /-- `client_factory()` and the start of `__aenter__`. -/
  | enter {h : Handling} (hpc : h.operation = some ⟨.created, false⟩) :
      OperationStep h { h with operation := some ⟨.entering, false⟩, client := some .inUse }
  /-- `client_factory()` raised. -/
  | noClient {h : Handling} (hpc : h.operation = some ⟨.created, false⟩) :
      OperationStep h { h with operation := some ⟨.done .raised, false⟩ }
  /-- It was cancelled before it ran. -/
  | neverRan {h : Handling} (hpc : h.operation = some ⟨.created, true⟩) :
      OperationStep h { h with operation := some ⟨.done .cancelled, false⟩ }
  /-- `ready.set()`. -/
  | entered {h : Handling} (hpc : h.operation = some ⟨.entering, false⟩) :
      OperationStep h { h with operation := some ⟨.working, false⟩, ready := true }
  /-- `__aenter__` failed, timed out or was cancelled, and closes the client. -/
  | enterFailed {h : Handling} {cancelled : Bool}
    (hpc : h.operation = some ⟨.entering, cancelled⟩) :
      OperationStep h { h with operation := some ⟨.leaving, false⟩, client := some .closing }
  /-- The client is closed, and `__aenter__` raises what it caught. -/
  | left {h : Handling} {cancelled : Bool} {outcome : Outcome}
      (hpc : h.operation = some ⟨.leaving, cancelled⟩) (hclosed : h.client = some .closed)
      (houtcome : outcome = .raised ∨ outcome = .cancelled) :
      OperationStep h { h with operation := some ⟨.done outcome, false⟩ }
  /-- The work is done. -/
  | finished {h : Handling} {cancelled : Bool} (outcome : Outcome)
      (hpc : h.operation = some ⟨.working, cancelled⟩) :
      OperationStep h { h with operation := some ⟨.done outcome, false⟩ }
  /-- It was cancelled and cleans up first. -/
  | interrupted {h : Handling} (hpc : h.operation = some ⟨.working, true⟩) :
      OperationStep h { h with operation := some ⟨.working, false⟩ }

/-- The watcher runs up to its next await. -/
inductive WatcherStep : Handling → Handling → Prop
  /-- The connection is closing: the operation is cancelled. -/
  | gone {h : Handling} (hrunning : h.watcher = some (.running false)) :
      WatcherStep h { h with
        watcher := some .done
        operation := h.operation.map fun o ↦ { o with cancelled := true } }
  /-- The operation is done. -/
  | idle {h : Handling} (hrunning : h.watcher = some (.running false)) (hdone : h.OperationDone) :
      WatcherStep h { h with watcher := some .done }
  | stopped {h : Handling} (hrunning : h.watcher = some (.running true)) :
      WatcherStep h { h with watcher := some .done }

/-- What else happens to a request: the close task is done, a timeout expires, the server cancels
the handler. -/
inductive OutsideStep : Handling → Handling → Prop
  | reaped {h : Handling} (hclosing : h.client = some .closing) :
      OutsideStep h { h with client := some .closed }
  | expired {h : Handling} (hpc : Timed h.pc) : OutsideStep h { h with timedOut := true }
  /-- The three seconds of `__aenter__`. -/
  | enterExpired {h : Handling} {operation : Operation} (hoperation : h.operation = some operation)
      (hpc : operation.pc = .entering ∨ operation.pc = .leaving) :
      OutsideStep h { h with operation := some { operation with cancelled := true } }
  | disconnected {h : Handling} : OutsideStep h h.cancel

end Handling

/-- `GatewayState`, with every request that was ever admitted. Those that have not ended are in
`handlers`. -/
structure GatewayState where
  busy : Bool
  stopping : Bool
  handlings : List Handling

namespace GatewayState

def init : GatewayState := { busy := false, stopping := false, handlings := [] }

/-- A request is admitted. -/
def admitted (s : GatewayState) : GatewayState :=
  { s with busy := true, handlings := s.handlings ++ [.init] }

/-- The end of a handler resets `busy`. -/
def leave (s : GatewayState) (i : ℕ) (h : Handling) : GatewayState :=
  { s with busy := if h.pc = .ended then false else s.busy, handlings := s.handlings.set i h }

/-- One stretch of one task, or one event from outside. -/
inductive Step : GatewayState → GatewayState → Prop
  | arrive {s : GatewayState} (hstopping : s.stopping = false) (hbusy : s.busy = false) :
      Step s s.admitted
  /-- No token, an unsupported request or `gateway_busy`. -/
  | refuse {s : GatewayState} : Step s s
  | handler {s : GatewayState} {i : ℕ} {h h' : Handling} (hi : s.handlings[i]? = some h)
      (hstep : Handling.HandlerStep h h') : Step s (s.leave i h')
  | operation {s : GatewayState} {i : ℕ} {h h' : Handling} (hi : s.handlings[i]? = some h)
      (hstep : Handling.OperationStep h h') : Step s { s with handlings := s.handlings.set i h' }
  | watcher {s : GatewayState} {i : ℕ} {h h' : Handling} (hi : s.handlings[i]? = some h)
      (hstep : Handling.WatcherStep h h') : Step s { s with handlings := s.handlings.set i h' }
  | outside {s : GatewayState} {i : ℕ} {h h' : Handling} (hi : s.handlings[i]? = some h)
      (hstep : Handling.OutsideStep h h') : Step s { s with handlings := s.handlings.set i h' }
  /-- `shutdown`. -/
  | shutdown {s : GatewayState} :
      Step s { s with stopping := true, handlings := s.handlings.map Handling.cancel }

/-- What the gateway can come to. -/
def Reachable (s : GatewayState) : Prop := Relation.ReflTransGen Step init s

end GatewayState

end VibeUsage
