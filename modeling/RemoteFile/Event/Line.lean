import RemoteFile.Event
import RemoteFile.Options.Text
import RemoteFile.Text.Quoted

/-!
# Log lines

A notice is one entry of the log: its level, its message, and its fields in order, each as a name
and a value.
-/

namespace RemoteFile

open Text

/-- The text of an injected failure. -/
def Injection.text : Injection → String
  | .status code => "Status(" ++ toString code ++ ")"
  | .reset => "Reset"
  | .stall => "Stall"
  | .truncate bytes => "Truncate(" ++ toString bytes ++ ")"

namespace Notice

/-- The message of a notice. -/
def message : Notice → String
  | .closingStale _ => "closing stale connection"
  | .reusing _ _ _ => "reusing connection"
  | .evicting _ _ => "evicting idle connection"
  | .waiting _ => "all connections busy, waiting"
  | .opened _ _ _ _ => "opened connection"
  | .discarding _ _ _ => "discarding connection"
  | .poolClosed _ => "pool closed"
  | .skipped _ _ => "skipped forward"
  | .arrived _ _ _ => "memory request"
  | .wholeObject _ _ => "server answered a range request with the full body"
  | .fileOpened _ _ => "opened remote file"
  | .readCancelled _ _ => "read cancelled"
  | .statistics _ counters => "htfs stats\n" ++ counters.summary
  | .budgetExhausted _ _ => "retry budget exhausted"
  | .rejected _ _ => "URL rejected, renewing"
  | .retrying _ _ _ => "retrying"
  | .usingExpired _ => "using expired URL"
  | .aboutToExpire _ => "URL about to expire, renewing"
  | .sharingFailure _ => "sharing failed renewal"
  | .renewalFailed _ _ => "renewal failed"
  | .renewedExpired _ => "renewed URL is already expired"
  | .renewed _ _ => "renewed URL"

/-- The fields of a notice. -/
def fields : Notice → List (String × String)
  | .closingStale id => [("id", toString id)]
  | .reusing id offset skip =>
    [("id", toString id), ("offset", toString offset), ("skip", toString skip)]
  | .evicting id cursor => [("id", toString id), ("cursor", toString cursor)]
  | .waiting offset => [("offset", toString offset)]
  | .opened id offset stop generation =>
    [("id", toString id), ("offset", toString offset), ("end", toString stop),
      ("generation", toString generation)]
  | .discarding id cursor spent =>
    [("id", toString id), ("cursor", toString cursor), ("spent", shownBool spent)]
  | .poolClosed idle => [("closed", toString idle)]
  | .skipped id skip => [("id", toString id), ("skip", toString skip)]
  | .arrived number url injection =>
    [("number", toString number), ("url", quoted url),
      ("fault", shownOption Injection.text injection)]
  | .wholeObject url length => [("url", quoted url), ("length", shownOption quoted length)]
  | .fileOpened name size => [("name", name), ("size", toString size)]
  | .readCancelled offset len => [("offset", toString offset), ("len", toString len)]
  | .statistics name _ => [("name", name)]
  | .budgetExhausted attempts failure =>
    [("attempts", toString attempts), ("error", failure.message)]
  | .rejected attempt failure => [("attempt", toString attempt), ("error", failure.message)]
  | .retrying attempt delay failure =>
    [("attempt", toString attempt), ("delay", delay.text), ("error", failure.message)]
  | .usingExpired generation | .aboutToExpire generation | .sharingFailure generation
  | .renewedExpired generation => [("generation", toString generation)]
  | .renewalFailed generation reason =>
    [("generation", toString generation), ("reason", reason)]
  | .renewed generation early =>
    [("generation", toString generation), ("early", shownBool early)]

/-- The entry of a notice in the log. -/
def line (n : Notice) : String :=
  n.fields.foldl (fun s f => s ++ " " ++ f.1 ++ "=" ++ f.2) (n.level.name ++ " " ++ n.message)

end Notice

end RemoteFile
