import ParrotServe.Model.SemanticRequests

/-!
# Sessions

`SessionManager` (`parrot/serve/session_manager.py`) with the part of a `Session` that it looks
at: the status, the life span, and the exceptions that the two executors of the session recorded.
What a session holds in the global components (its contexts and its variables) is released when it
is removed.

An exception object is its tuple of arguments.  It comes from HTTP, from `asyncio` or from user
code, so there may be no argument, and an argument may be an object that raises when it is
formatted.

`check_running_sessions` and `sweep_not_running_sessions` are called by `serve_loop`: what they
raise ends the process, and with it the run.  The other methods answer a request, and what they
did before they raised stays.
-/

namespace ParrotServe

/-- `SessionStatus`. -/
inductive SessionStatus
  | running
  | dead
  | bad
  deriving DecidableEq, Repr

/-- An exception that an executor recorded: what formatting each of its `args` yields. -/
structure BadException where
  args : List (Except PyError Text)
  deriving DecidableEq

/-- The `args[0]` of a format string. -/
def BadException.formatFirst (exception : BadException) : Except PyError Text :=
  match exception.args with
  | [] => .error .indexError
  | arg :: _ => arg

/-- A `Session`. -/
structure Session where
  sessionId : ℕ
  /-- In seconds. -/
  lifeSpan : ℤ
  /-- `executor.bad_exception`. -/
  executorException : Option BadException := none
  /-- `native_executor.bad_exception`. -/
  nativeException : Option BadException := none
  status : SessionStatus := .running
  deriving DecidableEq

namespace Session

/-- `is_running`. -/
def isRunning (session : Session) : Bool := decide (session.status = .running)

/-- `current_time - last_access_time > session.life_span * 1_000_000_000`. -/
def expired (session : Session) (currentTime lastAccessTime : ℤ) : Bool :=
  decide (session.lifeSpan * 1000000000 < currentTime - lastAccessTime)

end Session

/-- A `SessionManager`, with the global components that hold resources of sessions. -/
structure SessionManager (α : Type) where
  sessions : Dict ℕ Session := .empty
  sessionIdPool : RecyclePool := {}
  /-- Session id to the last access, in nanoseconds. -/
  sessionLastAccessTime : Dict ℕ ℤ := .empty
  /-- `life_span` of the arguments for creating sessions. -/
  lifeSpan : ℤ
  /-- `var_mgr`. -/
  vars : SemanticVariableManager
  /-- The contexts of `context_mgr`, with the engines. -/
  world : ContextWorld α
  /-- `context_mgr.session_contexts`. -/
  sessionContexts : Dict ℕ (List ContextRef) := .empty

namespace SessionManager

variable {α : Type} (s : SessionManager α)

/-- The message of an unknown session id. -/
def notFound (sessionId : ℕ) : String :=
  "Session (session_id=" ++ toString sessionId ++ ") not found."

/-! ## Resources -/

/-- `free_session_contexts`. -/
def freeSessionContexts (sessionId : ℕ) : Except PyError Unit × SessionManager α :=
  match s.sessionContexts.get? sessionId with
  | none => (.ok (), s)
  | some sessionCtxs =>
      match ContextWorld.freeAll sessionCtxs s.world with
      | .error e => (.error e, s)
      | .ok world => (.ok (), { s with
          world, sessionContexts := s.sessionContexts.erase sessionId })

/-- `free_session_resources`. -/
def freeSessionResources (sessionId : ℕ) : Except PyError Unit × SessionManager α :=
  match s.freeSessionContexts sessionId with
  | (.error e, s) => (.error e, s)
  | (.ok (), s) =>
      let (result, vars) := s.vars.freeLocalVarSpace sessionId
      (result, { s with vars })

/-- `_register_session_resources`. -/
def registerSessionResources (sessionId : ℕ) : Except PyError Unit × SessionManager α :=
  let (result, vars) := s.vars.registerLocalVarSpace sessionId
  (result, { s with vars, sessionContexts := s.sessionContexts.set sessionId [] })

/-! ## Methods of the manager -/

/-- `_remove_session`. -/
def removeSessionCore (sessionId : ℕ) : Except PyError Unit × SessionManager α :=
  match s.sessions.get? sessionId with
  | none => (.error (.keyError (toString sessionId)), s)
  | some session =>
      let s := { s with sessions := s.sessions.erase sessionId }
      if sessionId ∉ s.sessionLastAccessTime.keys then
        (.error (.keyError (toString sessionId)), s)
      else
        let s := { s with sessionLastAccessTime := s.sessionLastAccessTime.erase sessionId }
        match s.freeSessionResources session.sessionId with
        | (.error e, s) => (.error e, s)
        | (.ok (), s) =>
            let (result, pool) := s.sessionIdPool.free sessionId
            (result, { s with sessionIdPool := pool })

/-- `register_session`. -/
def registerSession (now : ℤ) : Except PyError ℕ × SessionManager α :=
  match s.sessionIdPool.allocate with
  | (.error e, pool) => (.error e, { s with sessionIdPool := pool })
  | (.ok sessionId, pool) =>
      match { s with sessionIdPool := pool }.registerSessionResources sessionId with
      | (.error e, s) => (.error e, s)
      | (.ok (), s) => (.ok sessionId, { s with
          sessions := s.sessions.set sessionId { sessionId, lifeSpan := s.lifeSpan }
          sessionLastAccessTime := s.sessionLastAccessTime.set sessionId now })

/-- `remove_session`. -/
def removeSession (sessionId : ℕ) : Except PyError Unit × SessionManager α :=
  if sessionId ∈ s.sessions.keys then s.removeSessionCore sessionId
  else (.error (.parrotAssert (notFound sessionId)), s)

/-- `session_access_update`. -/
def sessionAccessUpdate (sessionId : ℕ) (now : ℤ) : Except PyError Unit × SessionManager α :=
  if sessionId ∈ s.sessions.keys then
    (.ok (), { s with sessionLastAccessTime := s.sessionLastAccessTime.set sessionId now })
  else (.error (.parrotAssert (notFound sessionId)), s)

/-- `check_session_status`. -/
def checkSessionStatus (sessionId : ℕ) : Except PyError Unit :=
  match s.sessions.get? sessionId with
  | none => .error (.userError (notFound sessionId))
  | some session =>
      if session.isRunning then .ok ()
      else .error (.userError ("Session (session_id=" ++ toString sessionId ++ ") is not valid."))

/-- `session.status = status`. -/
def setStatus (sessionId : ℕ) (session : Session) (status : SessionStatus) : SessionManager α :=
  { s with sessions := s.sessions.set sessionId { session with status } }

/-- The body of the loop of `check_running_sessions`.  The status is set before the message of the
exception is formatted. -/
def checkSession (currentTime : ℤ) (sessionId : ℕ) (lastAccessTime : ℤ) :
    Except PyError Unit × SessionManager α :=
  match s.sessions.get? sessionId with
  | none => (.error (.keyError (toString sessionId)), s)
  | some session =>
      if !session.isRunning then (.ok (), s)
      else if session.expired currentTime lastAccessTime then
        (.ok (), s.setStatus sessionId session .dead)
      else
        match session.executorException with
        | none => (.ok (), s)
        | some exception =>
            (exception.formatFirst.map fun _ => (), s.setStatus sessionId session .bad)

/-- The loop of `check_running_sessions`. -/
def checkSessions (currentTime : ℤ) : List (ℕ × ℤ) → SessionManager α →
    Except PyError Unit × SessionManager α
  | [], s => (.ok (), s)
  | (sessionId, lastAccessTime) :: items, s =>
      match s.checkSession currentTime sessionId lastAccessTime with
      | (.error e, s) => (.error e, s)
      | (.ok (), s) => checkSessions currentTime items s

/-- `check_running_sessions`. -/
def checkRunningSessions (currentTime : ℤ) : Except PyError Unit × SessionManager α :=
  checkSessions currentTime s.sessionLastAccessTime.entries s

/-- The loop of `sweep_not_running_sessions`, over a copy of the sessions. -/
def sweepSessions : List (ℕ × Session) → SessionManager α → Except PyError Unit × SessionManager α
  | [], s => (.ok (), s)
  | (sessionId, session) :: items, s =>
      if session.isRunning then sweepSessions items s
      else
        match s.removeSessionCore sessionId with
        | (.error e, s) => (.error e, s)
        | (.ok (), s) => sweepSessions items s

/-- `sweep_not_running_sessions`. -/
def sweepNotRunningSessions : Except PyError Unit × SessionManager α :=
  sweepSessions s.sessions.entries s

/-! ## Runs -/

/-- An executor of a session records an exception. -/
def interrupt (sessionId : ℕ) (record : Session → Session) : SessionManager α :=
  match s.sessions.get? sessionId with
  | none => s
  | some session => { s with sessions := s.sessions.set sessionId (record session) }

/-- What can happen to the sessions. -/
inductive Action (α : Type)
  | registerSession (now : ℤ)
  /-- `remove_session` of the core. -/
  | removeSession (sessionId : ℕ)
  /-- A request for the session. -/
  | access (sessionId : ℕ) (now : ℤ)
  /-- `GraphExecutor.exception_interrupt`. -/
  | executorInterrupt (sessionId : ℕ) (exception : BadException)
  /-- `PyNativeExecutor.exception_interrupt`. -/
  | nativeInterrupt (sessionId : ℕ) (exception : BadException)
  /-- The variables of requests, and constant prefixes that expire. -/
  | vars (a : VariableAction)
  /-- The tasks of the sessions, and the engines, change the contexts. -/
  | contexts (world : ContextWorld α)
  | checkRunningSessions (currentTime : ℤ)
  | sweepNotRunningSessions

/-- No session. -/
def start (lifeSpan : ℤ) (timeout : ℕ) (world : ContextWorld α) : SessionManager α where
  lifeSpan
  vars := .new timeout
  world

/-- The namespaces of sessions are registered and freed by the sessions only. -/
def Enabled : Action α → Prop
  | .vars (.registerLocalVarSpace _) => False
  | .vars (.freeLocalVarSpace _) => False
  | _ => True

instance : ∀ a, Decidable (Enabled (α := α) a)
  | .vars (.registerLocalVarSpace _) | .vars (.freeLocalVarSpace _) =>
      inferInstanceAs (Decidable False)
  | .registerSession _ | .removeSession _ | .access _ _ | .executorInterrupt _ _
  | .nativeInterrupt _ _ | .contexts _ | .checkRunningSessions _ | .sweepNotRunningSessions
  | .vars (.createVar _ _) | .vars (.createVarsForSemanticRequestChain ..)
  | .vars (.createVarsForPynativeFunc _ _) | .vars (.set _ _)
  | .vars (.freeExpiredConstantPrefixVars _) => inferInstanceAs (Decidable True)

/-- The effect of an action. -/
def apply (uuid3 : ℕ → Text → VarId) : Action α → Except PyError (SessionManager α)
  | .registerSession now => .ok (s.registerSession now).2
  | .removeSession sessionId =>
      match s.checkSessionStatus sessionId with
      | .error _ => .ok s
      | .ok () => .ok (s.removeSession sessionId).2
  | .access sessionId now =>
      match s.checkSessionStatus sessionId with
      | .error _ => .ok s
      | .ok () => .ok (s.sessionAccessUpdate sessionId now).2
  | .executorInterrupt sessionId exception =>
      .ok (s.interrupt sessionId fun session =>
        { session with executorException := some exception })
  | .nativeInterrupt sessionId exception =>
      .ok (s.interrupt sessionId fun session =>
        { session with nativeException := some exception })
  | .vars a => .ok { s with vars := s.vars.apply uuid3 a }
  | .contexts world => .ok { s with world }
  | .checkRunningSessions currentTime =>
      match s.checkRunningSessions currentTime with
      | (.error e, _) => .error e
      | (.ok (), s) => .ok s
  | .sweepNotRunningSessions =>
      match s.sweepNotRunningSessions with
      | (.error e, _) => .error e
      | (.ok (), s) => .ok s

/-- Every order of these actions. -/
def system (uuid3 : ℕ → Text → VarId) (lifeSpan : ℤ) (timeout : ℕ) (world : ContextWorld α) :
    TransitionSystem (SessionManager α) (Action α) :=
  .ofExcept (start lifeSpan timeout world) (fun _ a => Enabled a) fun s a => s.apply uuid3 a

/-- A method of the manager called directly, without the check of the status in front of it.
What it did before it raised stays, and the run goes on. -/
def call (uuid3 : ℕ → Text → VarId) : Action α → SessionManager α
  | .registerSession now => (s.registerSession now).2
  | .removeSession sessionId => (s.removeSession sessionId).2
  | .access sessionId now => (s.sessionAccessUpdate sessionId now).2
  | .executorInterrupt sessionId exception =>
      s.interrupt sessionId fun session => { session with executorException := some exception }
  | .nativeInterrupt sessionId exception =>
      s.interrupt sessionId fun session => { session with nativeException := some exception }
  | .vars a => { s with vars := s.vars.apply uuid3 a }
  | .contexts world => { s with world }
  | .checkRunningSessions currentTime => (s.checkRunningSessions currentTime).2
  | .sweepNotRunningSessions => s.sweepNotRunningSessions.2

/-- Every order of direct calls. -/
def callSystem (uuid3 : ℕ → Text → VarId) (lifeSpan : ℤ) (timeout : ℕ) (world : ContextWorld α) :
    TransitionSystem (SessionManager α) (Action α) :=
  .ofFun (start lifeSpan timeout world) (fun _ a => Enabled a) fun s a => s.call uuid3 a

end SessionManager

end ParrotServe
