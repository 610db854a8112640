import OperationFrontLine.Library.Numeral
import OperationFrontLine.Library.Run

/-!
# Sessions and the lists of handles

A `Connect` call registers an output handle under the caller's name and spawns a
worker, which finds the handle again by that name when it replies.  That list is
the one of `ThreadHive<std::string>`; input handles are in a list of their own and
are never looked up.  An input handle belongs to the hive of the session and to
the copy of it that the worker's thread runs, and goes with the last of them.
-/

namespace OperationFrontLine.Mailbox

open OperationFrontLine.Library

inductive Report where
  | account (session : Nat)
  | crashed (inputName outputName : Text)
deriving DecidableEq

structure Handle (Queue : Type) where
  address : Nat
  threadName : Text
  shares : UInt32
  msgQueue : Queue
deriving DecidableEq

def cleanupT : Text := "CLEANUP_T".toList

def cleanupO : Text := "CLEANUP_O".toList

def dllO : Text := "DLL_O".toList

/-- Where a worker is: `replying` and `reporting` hold the handle it found. -/
inductive Phase where
  | connecting
  | replying (target : Nat)
  | serving
  | reporting (target : Nat)
  | ended
deriving DecidableEq

/-- A `Connect` call: its names, its handles with the values that `shares` had
before `addThread`, its worker, whether the pair was committed and deleted, and
whether the worker's copy of the input hive is gone. -/
structure Session where
  inputName : Text
  outputName : Text
  output : Nat
  garbage : UInt32
  input : Nat
  inputGarbage : UInt32
  phase : Phase
  committed : Bool
  deleted : Bool
  exited : Bool
deriving DecidableEq

/-- The output handles from `head` on, the input handles, in which what waits is
left out, the sessions in order of their `Connect` calls and the pairs that wait
for the cleanup thread. -/
structure Sessions where
  hive : List (Handle (List Report))
  inputs : List (Handle Unit)
  sessions : List Session
  pairs : List Nat
deriving DecidableEq

def Sessions.start : Sessions :=
  { hive :=
      [{ address := 0, threadName := cleanupO, shares := 1, msgQueue := [] },
        { address := 1, threadName := dllO, shares := 1, msgQueue := [] }]
    inputs := [{ address := 0, threadName := cleanupT, shares := 2, msgQueue := () }]
    sessions := []
    pairs := [] }

section Hive

variable {Queue : Type}

/-- `getThreadHandle`: the first handle with the name; `none` is the null pointer. -/
def getThreadHandle (threadName : Text) : List (Handle Queue) → Option Nat
  | [] => none
  | current :: next =>
      if threadName = current.threadName then
        some current.address
      else
        getThreadHandle threadName next

/-- `addThread`: `push` at the tail.  The constructor leaves `shares` as the
memory had it. -/
def addThread (hive : List (Handle Queue)) (address : Nat) (threadName : Text) (garbage : UInt32)
    (empty : Queue) : List (Handle Queue) :=
  hive ++ [{ address, threadName, shares := garbage + 1, msgQueue := empty }]

/-- `spawnThread`: the thread gets a copy of the hive. -/
def spawnThread (address : Nat) (hive : List (Handle Queue)) : List (Handle Queue) :=
  hive.map fun handle =>
    if handle.address = address then { handle with shares := handle.shares + 1 } else handle

/-- The destructor of a `ThreadHive` that holds the handle. -/
def releaseThread (address : Nat) : List (Handle Queue) → List (Handle Queue)
  | [] => []
  | current :: next =>
      if current.address = address then
        let shares := current.shares - 1
        if shares < 1 then next else { current with shares := shares } :: next
      else
        current :: releaseThread address next

def onQueue (address : Nat) (change : Queue → Queue) (hive : List (Handle Queue)) :
    List (Handle Queue) :=
  hive.map fun handle =>
    if handle.address = address then
      { handle with msgQueue := change handle.msgQueue }
    else
      handle

def Has (hive : List (Handle Queue)) (address : Nat) : Prop :=
  address ∈ hive.map Handle.address

instance (hive : List (Handle Queue)) (address : Nat) : Decidable (Has hive address) :=
  inferInstanceAs (Decidable (address ∈ hive.map Handle.address))

end Hive

/-- What a caller or a thread does next.  `connect` carries what the allocator
chose: the addresses of the handles and what was in the memory of `shares`. -/
inductive SessionEvent where
  | connect (inputName outputName : Text) (address : Nat) (garbage : UInt32)
      (input : Nat) (inputGarbage : UInt32)
  | publish (session : Nat)
  | getOutput (session : Nat)
  | getState
  | getDllState
  | commit (pairs : List Nat)
  /-- the worker reads what waits in its input handle -/
  | receive (session : Nat)
  | findReply (session : Nat)
  | sendReply (session : Nat)
  | quit (session : Nat)
  | fail (session : Nat)
  | sendReport (session : Nat)
  /-- the worker's thread is over -/
  | exit (session : Nat)
  | cleanUp
deriving DecidableEq

namespace Sessions

def queue (state : Sessions) (address : Nat) : List Report :=
  (state.hive.find? fun handle => handle.address = address).elim [] Handle.msgQueue

def setSession (state : Sessions) (index : Nat) (session : Session) : Sessions :=
  { state with sessions := state.sessions.set index session }

/-- Use the queue of the handle behind a pointer; undefined when the handle is gone. -/
def use (state : Sessions) (target : Nat) (change : List Report → List Report) :
    Option Sessions :=
  if Has state.hive target then
    some { state with hive := onQueue target change state.hive }
  else
    none

def send (state : Sessions) (target : Nat) (report : Report) : Option Sessions :=
  state.use target (· ++ [report])

/-- `PublishData` on one pair: a message to its worker; undefined when the hive
is deleted or its handle gone. -/
def publishData (state : Sessions) (session : Session) : Option Sessions :=
  if session.deleted = false ∧ Has state.inputs session.input then some state else none

def commitPair (state : Sessions) (index : Nat) : Option Sessions :=
  state.sessions[index]?.bind fun session =>
    (state.publishData session).map fun sent =>
      sent.setSession index { session with committed := true }

/-- One step; `none` where it is not enabled or undefined in the source. -/
def step (state : Sessions) : SessionEvent → Option Sessions
  | .connect inputName outputName address garbage input inputGarbage =>
      if Has state.hive address ∨ Has state.inputs input then
        none
      else
        some { state with
          hive := addThread state.hive address outputName garbage []
          inputs := spawnThread input (addThread state.inputs input inputName inputGarbage ())
          sessions := state.sessions ++
            [{ inputName, outputName, output := address, garbage, input, inputGarbage,
               phase := .connecting, committed := false, deleted := false, exited := false }] }
  | .publish index => state.sessions[index]?.bind state.publishData
  | .getOutput index =>
      state.sessions[index]?.bind fun session =>
        if session.deleted then none else state.use session.output List.tail
  | .getState => state.use 0 fun _ => []
  | .getDllState => state.use 1 List.tail
  | .commit pairs =>
      (pairs.foldlM commitPair state).map fun committed =>
        { committed with pairs := committed.pairs ++ pairs }
  | .receive index =>
      state.sessions[index]?.bind fun session =>
        if (session.phase = .connecting ∨ session.phase = .serving) ∧
            Has state.inputs session.input then
          some state
        else
          none
  | .findReply index =>
      state.sessions[index]?.bind fun session =>
        if session.phase = .connecting then
          (getThreadHandle session.outputName state.hive).map fun target =>
            state.setSession index { session with phase := .replying target }
        else
          none
  | .sendReply index =>
      state.sessions[index]?.bind fun session =>
        match session.phase with
        | .replying target =>
            (state.send target (.account index)).map fun sent =>
              sent.setSession index { session with phase := .serving }
        | _ => none
  | .quit index =>
      state.sessions[index]?.bind fun session =>
        if session.committed ∧ (session.phase = .connecting ∨ session.phase = .serving) then
          some (state.setSession index { session with phase := .ended })
        else
          none
  | .fail index =>
      state.sessions[index]?.bind fun session =>
        if session.phase = .connecting ∨ session.phase = .serving then
          (getThreadHandle cleanupO state.hive).map fun target =>
            state.setSession index { session with phase := .reporting target }
        else
          none
  | .sendReport index =>
      state.sessions[index]?.bind fun session =>
        match session.phase with
        | .reporting target =>
            (state.send target (.crashed session.inputName session.outputName)).map fun sent =>
              sent.setSession index { session with phase := .ended }
        | _ => none
  | .exit index =>
      state.sessions[index]?.bind fun session =>
        if session.phase = .ended ∧ session.exited = false ∧ Has state.inputs session.input then
          some { state with
            inputs := releaseThread session.input state.inputs
            sessions := state.sessions.set index { session with exited := true } }
        else
          none
  | .cleanUp =>
      match state.pairs with
      | [] => none
      | index :: pairs =>
          state.sessions[index]?.bind fun session =>
            -- the cleanup thread waits for the worker; a second delete is undefined
            if session.phase = .ended ∧ session.deleted = false ∧
                Has state.inputs session.input then
              some
                { hive := releaseThread session.output state.hive
                  inputs := releaseThread session.input state.inputs
                  sessions := state.sessions.set index { session with deleted := true }
                  pairs := pairs }
            else
              none

end Sessions

end OperationFrontLine.Mailbox
