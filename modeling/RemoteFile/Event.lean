import RemoteFile.Counters
import RemoteFile.Failure
import RemoteFile.Range

/-!
# Events

What the engine does that can be seen from outside: the notices that it writes to the log, the
calls that it makes to the transport and to the renewer, the delays that it waits out, and the
attempts of retried operations.
-/

namespace RemoteFile

/-- How severe a notice is. -/
inductive Level where
  /-- Something is lost. -/
  | error
  /-- Something went wrong and is dealt with. -/
  | warn
  /-- A milestone. -/
  | info
  /-- A step of interest for a diagnosis. -/
  | debug
  /-- Every step. -/
  | trace
deriving DecidableEq, Repr

namespace Level

/-- The position of a level, the most severe one first. -/
def rank : Level → Nat
  | .error => 0
  | .warn => 1
  | .info => 2
  | .debug => 3
  | .trace => 4

/-- The name of a level in the log. -/
def name : Level → String
  | .error => "ERROR"
  | .warn => "WARN"
  | .info => "INFO"
  | .debug => "DEBUG"
  | .trace => "TRACE"

/-- The level with a name, which may be in lower case. -/
def ofName? (name : String) : Option Level :=
  [error, warn, info, debug, trace].find? fun l => l.name == name.toUpper

end Level

/-- A failure that a transport is told to inject into one request. -/
inductive Injection where
  /-- Answer with this status. -/
  | status (code : Nat)
  /-- Send at most one chunk, then break the connection. -/
  | reset
  /-- Accept the request and never send a byte. -/
  | stall
  /-- End the response after so many bytes. -/
  | truncate (bytes : Nat)
deriving DecidableEq, Repr

/-- A call to the transport. -/
inductive Call where
  /-- Ask for the metadata of the object. -/
  | probe (url : String)
  /-- Ask for a range of the object. -/
  | openRange (url : String) (range : ByteRange)
deriving DecidableEq, Repr

/-- What is written to the log. -/
inductive Notice where
  /-- An idle connection was unused for too long. -/
  | closingStale (id : Nat)
  /-- A read goes to an open connection. -/
  | reusing (id offset skip : Nat)
  /-- An idle connection makes room for a new one. -/
  | evicting (id cursor : Nat)
  /-- A read waits for a connection. -/
  | waiting (offset : Nat)
  /-- A connection was opened. -/
  | opened (id offset stop generation : Nat)
  /-- A connection is of no further use. -/
  | discarding (id cursor : Nat) (spent : Bool)
  /-- The pool was closed with so many idle connections. -/
  | poolClosed (idle : Nat)
  /-- A connection was moved forward. -/
  | skipped (id skip : Nat)
  /-- A request reached the transport. -/
  | arrived (number : Nat) (url : String) (injection : Option Injection)
  /-- A server sends the whole object for a range from its start. -/
  | wholeObject (url : String) (length : Option String)
  /-- A file was opened. -/
  | fileOpened (name : String) (size : Nat)
  /-- A read was called off. -/
  | readCancelled (offset len : Nat)
  /-- The counters of a file that is closed. -/
  | statistics (name : String) (counters : Counters)
  /-- The last attempt that is allowed failed. -/
  | budgetExhausted (attempts : Nat) (failure : Failure)
  /-- A URL was rejected and is renewed. -/
  | rejected (attempt : Nat) (failure : Failure)
  /-- An attempt is made again after a delay. -/
  | retrying (attempt : Nat) (delay : Duration) (failure : Failure)
  /-- A URL is used although it has expired. -/
  | usingExpired (generation : Nat)
  /-- A URL is renewed before it expires. -/
  | aboutToExpire (generation : Nat)
  /-- The failure of a renewal is passed on. -/
  | sharingFailure (generation : Nat)
  /-- A renewal failed. -/
  | renewalFailed (generation : Nat) (reason : String)
  /-- A fresh URL has expired already. -/
  | renewedExpired (generation : Nat)
  /-- A URL was renewed. -/
  | renewed (generation : Nat) (early : Bool)
deriving DecidableEq, Repr

/-- How severe a notice is. -/
def Notice.level : Notice → Level
  | .closingStale _ | .evicting _ _ | .opened _ _ _ _ | .discarding _ _ _ | .poolClosed _
  | .wholeObject _ _ | .readCancelled _ _ | .aboutToExpire _ | .sharingFailure _ => .debug
  | .reusing _ _ _ | .waiting _ | .skipped _ _ | .arrived _ _ _ => .trace
  | .fileOpened _ _ | .statistics _ _ | .renewed _ _ => .info
  | .budgetExhausted _ _ | .rejected _ _ | .retrying _ _ _ | .usingExpired _ | .renewalFailed _ _
  | .renewedExpired _ => .warn

/-- Something that can be seen from outside. -/
inductive Event where
  /-- A notice is written to the log. -/
  | notice (n : Notice)
  /-- The transport is called. -/
  | call (c : Call)
  /-- The renewer is called. -/
  | renewerCall
  /-- A delay is handed to the sleeper. -/
  | sleep (delay : Duration)
  /-- An attempt is made with the URL of a generation. -/
  | attempt (url : String) (generation : Nat)
deriving DecidableEq, Repr

namespace Event

/-- The calls to the transport among some events. -/
def calls (l : List Event) : List Call :=
  l.filterMap fun
    | .call c => some c
    | _ => none

/-- The delays among some events. -/
def delays (l : List Event) : List Duration :=
  l.filterMap fun
    | .sleep d => some d
    | _ => none

/-- The URLs and generations of the attempts among some events. -/
def attempts (l : List Event) : List (String × Nat) :=
  l.filterMap fun
    | .attempt url generation => some (url, generation)
    | _ => none

/-- How often the renewer was called. -/
def renewerCalls (l : List Event) : Nat := l.count .renewerCall

/-- The notices up to a level among some events. -/
def notices (level : Level) (l : List Event) : List Notice :=
  l.filterMap fun
    | .notice n => if n.level.rank ≤ level.rank then some n else none
    | _ => none

end Event

end RemoteFile
