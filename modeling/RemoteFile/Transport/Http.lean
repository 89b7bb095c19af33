import RemoteFile.Range.Content
import RemoteFile.Transport
import RemoteFile.Url.Parse

/-!
# The HTTP transport

Requests ranges of an object with GET. A probe asks for the first byte and takes the size from the
content range of the answer. A response is only handed out if it is known to start where it should:
a partial one has to say that it covers the range, a complete one serves a range from the start.
What the peer answers to each request is a parameter.
-/

namespace RemoteFile

namespace Http

/-- What a peer answers, as far as it matters. Header values that are not plain text are absent. -/
structure Reply where
  /-- The status code. -/
  status : Nat
  /-- The value of the content range header. -/
  contentRange : Option String
  /-- The version of the object's content. -/
  etag : Option String
  /-- When the object was changed last. -/
  lastModified : Option String
  /-- The length of the body, as it was announced. -/
  contentLength : Option String
  /-- The body. -/
  body : Body

/-- A request as it is sent. -/
structure Request where
  /-- The URL. -/
  url : String
  /-- The headers in order. -/
  headers : List (String × String)
deriving DecidableEq, Repr

/-- A status that a size can be told from, in words. -/
def statusLine (status : Nat) : String :=
  if status == 206 then "206 Partial Content" else "416 Range Not Satisfiable"

/-- The metadata of the object, from the answer to a probe. -/
def probed (url : String) (r : Reply) : Except Failure Probe :=
  if r.status == 206 || r.status == 416 then
    match r.contentRange with
    | none => .error (.malformed ("HTTP " ++ statusLine r.status ++ " without Content-Range"))
    | some value =>
      match ContentRange.parse value with
      | .error f => .error f
      | .ok ⟨_, none⟩ => .error (.malformed "Content-Range without a complete length")
      | .ok ⟨_, some size⟩ => .ok ⟨size, r.etag, r.lastModified⟩
  else if r.status == 200 then .error .rangeNotSupported
  else .error (.status r.status url)

/-- Why a response is not handed out for a range, if it is not. -/
def refusal (url : String) (range : ByteRange) (r : Reply) : Option Failure :=
  if r.status == 206 then
    match r.contentRange with
    | none => some (.malformed "206 without Content-Range")
    | some value =>
      match ContentRange.parse value with
      | .error f => some f
      | .ok c =>
        if c.covers range then none
        else some (.malformed ("asked for " ++ range.header ++ ", server sent " ++ value))
  else if r.status == 200 then
    if range.start == 0 then none else some .rangeNotSupported
  else some (.status r.status url)

/-- The body of a response that is handed out for a range. -/
def accepted (url : String) (range : ByteRange) (r : Reply) : Except Failure Body :=
  match refusal url range r with
  | some f => .error f
  | none => .ok r.body

/-- What is noted of a response that is handed out. -/
def notices (url : String) (range : ByteRange) (r : Reply) : List Notice :=
  if r.status == 200 && range.start == 0 then [.wholeObject url r.contentLength] else []

/-- A character of a header's name. -/
def isNameChar (c : Char) : Bool := c.isAlphanum || "!#$%&'*+-.^_|~\x60".toList.contains c

/-- A character of a header's value. -/
def isValueChar (c : Char) : Bool := c == '\t' || (0x20 ≤ c.toNat && c.toNat != 0x7F)

/-- Can the header be sent? -/
def isHeader (h : String × String) : Bool :=
  !h.1.isEmpty && h.1.toList.all isNameChar && h.2.toList.all isValueChar

/-- A character of the host that a request names: a domain may hold quotes and braces, which a
request line does not. -/
def isHostChar (c : Char) : Bool := !"\"\x60\x7b\x7d".toList.contains c

/-- Can a request be sent to this URL with these headers? -/
def isSendable (headers : List (String × String)) (url : String) : Bool :=
  match Url.ofRemote url with
  | .error _ => false
  | .ok u => (u.host.getD "").toList.all isHostChar && headers.all isHeader

/-- The range that a call asks for. -/
def rangeOf : Call → ByteRange
  | .probe _ => ByteRange.between 0 1
  | .openRange _ range => range

/-- The URL that a call goes to. -/
def urlOf : Call → String
  | .probe url => url
  | .openRange url _ => url

/-- The name under which the client introduces itself, unless told otherwise. -/
def userAgent : String := "htfs/0.1.0"

/-- The request for a call: the given headers follow the range, and one of them may replace the
name of the client. -/
def request (headers : List (String × String)) (c : Call) : Request :=
  let named := headers.any fun h => h.1.toLower == "user-agent"
  { url := urlOf c
    headers := ("range", (rangeOf c).header) ::
      (if named then headers else headers ++ [("user-agent", userAgent)]) }

/-- A request that waits for its answer. -/
structure Ticket where
  /-- What was asked for. -/
  call : Call
  /-- When the answer is there; none if it never is. -/
  due : Option Nat
  /-- The answer. -/
  reply : Except Failure Reply

/-- What a peer does with a request, given by its number: how long it takes, if it ever answers,
and the answer. -/
abbrev Peer := Nat → Request → Option Nat × Except Failure Reply

/-- Sends a request; the state counts them. -/
def receive (headers : List (String × String)) (peer : Peer) (now : Nat) (c : Call) (sent : Nat) :
    Ticket × Nat × List Notice :=
  if isSendable headers (urlOf c) then
    let (delay, reply) := peer sent (request headers c)
    (⟨c, delay.map (now + ·), reply⟩, sent + 1, [])
  else (⟨c, some now, .error (.invalidUrl (urlOf c))⟩, sent, [])

/-- Collects the answer to a request for a range. -/
def opened (t : Ticket) (sent : Nat) : Except Failure Body × Nat × List Notice :=
  let url := urlOf t.call
  let range := rangeOf t.call
  match t.reply with
  | .error f => (.error f, sent, [])
  | .ok r => (accepted url range r, sent, notices url range r)

/-- The transport that talks to a peer. -/
def transport (headers : List (String × String)) (peer : Peer) : Transport Nat Ticket where
  send := receive headers peer
  due := Ticket.due
  probed t _ := t.reply.bind (probed (urlOf t.call))
  opened := opened
  closed sent := sent

/-- The peer that cannot be connected to. -/
def unreachable : Peer := fun _ r => (some 0, .error (.connect r.url))

end Http

end RemoteFile
