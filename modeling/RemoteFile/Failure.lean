import RemoteFile.Duration.Text

/-!
# Failures

Why an operation on a remote file failed, how the retry driver treats the failure (its
`RetryClass`), and the wording of it.
-/

namespace RemoteFile

/-- How the retry driver treats a failure. -/
inductive RetryClass where
  /-- Transient: wait, then try again on a fresh connection. -/
  | retryable
  /-- The URL was rejected or has expired: renew it, then try again. -/
  | renew
  /-- Final. -/
  | fatal
deriving DecidableEq, Repr

/-- The class of a status code that is not a success. -/
def RetryClass.ofStatus (status : Nat) : RetryClass :=
  if status == 401 || status == 403 then .renew
  else if status == 408 || status == 429 then .retryable
  else if 500 ≤ status && status ≤ 599 then .retryable
  else .fatal

/-- Why an operation failed. -/
inductive Failure where
  /-- The text is not the URL of a remote file. -/
  | invalidUrl (reason : String)
  /-- The options cannot be worked with. -/
  | invalidConfig (reason : String)
  /-- The server answered with a status that is not a success. -/
  | status (code : Nat) (url : String)
  /-- An open response stayed silent for too long. -/
  | idleTimeout (after : Duration)
  /-- A request was not answered in time. -/
  | timeout (reason : String)
  /-- No connection could be made. -/
  | connect (reason : String)
  /-- The connection broke. -/
  | network (reason : String)
  /-- The response makes no sense. -/
  | malformed (reason : String)
  /-- The server sends whole objects only. -/
  | rangeNotSupported
  /-- A response ended before its last byte. -/
  | shortRead (expected actual : Nat)
  /-- The position lies past the end. -/
  | outOfRange (offset size : Nat)
  /-- A cursor cannot move there. -/
  | negativeSeek
  /-- The URL has expired. -/
  | expired
  /-- No fresh URL could be had. -/
  | renewal (reason : String)
  /-- The last of so many attempts failed, too. -/
  | exhausted (attempts : Nat) (last : Failure)
  /-- The operation was called off. -/
  | cancelled
  /-- The file is closed. -/
  | closed
  /-- The program broke off: it was told to do what cannot be done. -/
  | crash (reason : String)
deriving DecidableEq, Repr, Inhabited

namespace Failure

/-- How the retry driver treats the failure. -/
def retryClass : Failure → RetryClass
  | .status code _ => RetryClass.ofStatus code
  | .idleTimeout _ | .timeout _ | .connect _ | .network _ | .shortRead _ _ => .retryable
  | .expired => .renew
  | .invalidUrl _ | .invalidConfig _ | .malformed _ | .rangeNotSupported | .outOfRange _ _
  | .negativeSeek | .renewal _ | .exhausted _ _ | .cancelled | .closed | .crash _ => .fatal

/-- The status code behind the failure, if there is one. -/
def statusCode : Failure → Option Nat
  | .status code _ => some code
  | .exhausted _ last => last.statusCode
  | _ => none

/-- The failure that led to this one. -/
def cause : Failure → Option Failure
  | .exhausted _ last => some last
  | _ => none

/-- The wording of the failure. -/
def message : Failure → String
  | .invalidUrl reason => "invalid URL: " ++ reason
  | .invalidConfig reason => "invalid configuration: " ++ reason
  | .status code url => "HTTP " ++ toString code ++ " from " ++ url
  | .idleTimeout after => "no data received for " ++ after.text
  | .timeout reason => "request timeout: " ++ reason
  | .connect reason => "connection failed: " ++ reason
  | .network reason => "network error: " ++ reason
  | .malformed reason => "malformed response: " ++ reason
  | .rangeNotSupported => "server does not honor range requests"
  | .shortRead expected actual =>
    "short read: connection ended at byte " ++ toString actual ++
      ", expected data up to byte " ++ toString expected
  | .outOfRange offset size =>
    "offset " ++ toString offset ++ " is past the end of the file (" ++ toString size ++ " bytes)"
  | .negativeSeek => "cannot seek to a negative position"
  | .expired => "URL has expired"
  | .renewal reason => "URL renewal failed: " ++ reason
  | .exhausted attempts last =>
    "giving up after " ++ toString attempts ++ " attempts: " ++ last.message
  | .cancelled => "operation cancelled"
  | .closed => "file is closed"
  | .crash reason => reason

end Failure

end RemoteFile
