import RemoteFile.Failure
import RemoteFile.Text.Quoted
import RemoteFile.Url.Domain

/-!
# Reading URLs

An absolute URL is read into its scheme, its host and the segments of its path. Text around it that
does not show is dropped. The schemes of the web are read leniently (backslashes count as slashes,
any number of them may follow the scheme) and always have a host; others need not have one.

Main statement:

* `ofRemote_eq_ok_iff` : a URL is accepted for a remote file if it has a scheme of the web.
-/

namespace RemoteFile

/-- An absolute URL. -/
structure Url where
  /-- The scheme, in lower case. -/
  scheme : String
  /-- The host in its canonical form, if there is one. -/
  host : Option String
  /-- The segments of the path, dot segments resolved; a path of another form is one segment. -/
  path : List String
deriving DecidableEq, Repr

namespace Url

/-- Why a text is no URL. -/
inductive Fault where
  /-- The host is missing. -/
  | emptyHost
  /-- The host is no domain name. -/
  | domainName
  /-- The port is no number of 16 bits. -/
  | port
  /-- The host looks like a four-byte address and is none. -/
  | address4
  /-- The host looks like a sixteen-byte address and is none. -/
  | address6
  /-- The host of a foreign scheme holds a character that separates parts. -/
  | hostCharacter
  /-- There is no scheme. -/
  | relative
deriving DecidableEq, Repr

/-- The wording of a fault. -/
def Fault.message : Fault → String
  | .emptyHost => "empty host"
  | .domainName => "invalid international domain name"
  | .port => "invalid port number"
  | .address4 => "invalid IPv4 address"
  | .address6 => "invalid IPv6 address"
  | .hostCharacter => "invalid domain character"
  | .relative => "relative URL without a base"

/-- How a scheme is read. -/
inductive Kind where
  /-- A scheme of the web. -/
  | web
  /-- Local files. -/
  | file
  /-- Any other scheme. -/
  | foreign
deriving DecidableEq, Repr

/-- How a scheme is read. -/
def Kind.ofScheme (scheme : String) : Kind :=
  if ["http", "https", "ws", "wss", "ftp"].contains scheme then .web
  else if scheme == "file" then .file
  else .foreign

/-- Without the characters up to the space at both ends, and without tabs and line ends. -/
def clean (s : List Char) : List Char :=
  let invisible (c : Char) : Bool := c.toNat ≤ 0x20
  let trimmed := ((s.dropWhile invisible).reverse.dropWhile invisible).reverse
  trimmed.filter fun c => c != '\t' && c != '\n' && c != '\r'

/-- The scheme and what follows its colon. -/
def splitScheme (s : List Char) : Option (String × List Char) :=
  let inScheme (c : Char) : Bool := c.isAlphanum || c == '+' || c == '-' || c == '.'
  let name := s.takeWhile inScheme
  match name, s.dropWhile inScheme with
  | first :: _, ':' :: rest =>
    if first.isAlpha then some (String.ofList (name.map Char.toLower), rest) else none
  | _, _ => none

/-- A character that counts as a slash. -/
def isSlash (kind : Kind) (c : Char) : Bool := c == '/' || (kind != .foreign && c == '\\')

/-- A character at which the authority ends. -/
def endsAuthority (kind : Kind) (c : Char) : Bool := isSlash kind c || c == '?' || c == '#'

/-- The part before the last `@`, if there is one. -/
def userPart (s : List Char) : Option (List Char) :=
  if s.contains '@' then some ((s.reverse.dropWhile (· != '@')).tail.reverse) else none

/-- The host at the start, up to a colon outside brackets or the end of the authority. -/
def splitHost (kind : Kind) (inside : Bool) : List Char → List Char × List Char
  | [] => ([], [])
  | c :: s =>
    if (c == ':' && !inside) || endsAuthority kind c then ([], c :: s)
    else
      let inside := c == '[' || (inside && c != ']')
      let (host, rest) := splitHost kind inside s
      (c :: host, rest)

/-- An address between brackets. -/
def bracketed (s : List Char) : Except Fault String :=
  match s.getLast? with
  | some ']' =>
    match address6? s.dropLast with
    | some pieces => .ok ("[" ++ showAddress6 pieces ++ "]")
    | none => .error .address6
  | _ => .error .address6

/-- A host that is a domain name or an address, in its canonical form. -/
def domainHost (s : List Char) : Except Fault String :=
  match s with
  | '[' :: s => bracketed s
  | _ =>
    match domainOfBytes? (decode s) with
    | none => .error .domainName
    | some domain =>
      if domain.isEmpty then .error .emptyHost
      else if endsInNumber domain then
        match address4? domain with
        | some n => .ok (showAddress4 n)
        | none => .error .address4
      else .ok (String.ofList domain)

/-- A host of a foreign scheme. -/
def foreignHost (s : List Char) : Except Fault String :=
  match s with
  | '[' :: s => bracketed s
  | _ =>
    if s.any fun c => c.toNat == 0 || " #/:<>?@[\\]^|".toList.contains c then .error .hostCharacter
    else .ok (String.ofList (encode (fun c => c.toNat < 0x20 || c.toNat == 0x7F) s))

/-- The text after a port, which is a number of 16 bits or missing. -/
def afterPort (s : List Char) : Except Fault (List Char) :=
  let digits := s.takeWhile Char.isDigit
  match s.dropWhile Char.isDigit with
  | [] => if digitsLarge digits then .error .port else .ok []
  | c :: rest =>
    if digitsLarge digits || !endsAuthority .web c then .error .port else .ok (c :: rest)
where
  /-- More than 16 bits. -/
  digitsLarge (digits : List Char) : Bool := 65535 < (digitsIn 10 digits).getD 0

/-- A user has to be followed by a host: one that says something always, an empty one if the URL
goes on. -/
def needsHost (user : Option (List Char)) (rest : List Char) : Bool :=
  match user with
  | none => false
  | some [] => !rest.isEmpty
  | some user => user != [':']

/-- The host of an authority and the text after the authority. -/
def authority (kind : Kind) (s : List Char) : Except Fault (Option String × List Char) := do
  let user := userPart (s.takeWhile fun c => !endsAuthority kind c)
  let afterUser :=
    match user with
    | none => s
    | some user => s.drop (user.length + 1)
  let (host, rest) := splitHost kind false afterUser
  if host.isEmpty then
    if kind == .web || rest.head? == some ':' || needsHost user rest then .error .emptyHost
    else .ok (none, rest)
  else
    let host ← if kind == .web then domainHost host else foreignHost host
    match rest with
    | ':' :: rest =>
      let rest ← afterPort rest
      .ok (some host, rest)
    | _ => .ok (some host, rest)

/-- The host of a local file and the text after it. -/
def fileAuthority (s : List Char) : Except Fault (Option String × List Char) := do
  let text := s.takeWhile fun c => !endsAuthority .file c
  let rest := s.dropWhile fun c => !endsAuthority .file c
  match text with
  | [] => .ok (none, rest)
  | [letter, mark] =>
    if letter.isAlpha && (mark == ':' || mark == '|') then .ok (none, s)
    else
      let host ← domainHost text
      .ok (some host, rest)
  | _ =>
    let host ← domainHost text
    .ok (some host, rest)

/-- A segment with its encoded dots written out. -/
def plainDots : List Char → List Char
  | '%' :: '2' :: 'e' :: s | '%' :: '2' :: 'E' :: s => '.' :: plainDots s
  | c :: s => c :: plainDots s
  | [] => []

/-- Resolves dot segments; `done` holds the segments before, the last one first. -/
def resolve (done : List String) : List (List Char) → List String
  | [] => done.reverse
  | [last] =>
    if plainDots last == ['.', '.'] then ("" :: done.tail).reverse
    else if plainDots last == ['.'] then ("" :: done).reverse
    else (String.ofList (encode pathSet last) :: done).reverse
  | segment :: rest =>
    if plainDots segment == ['.', '.'] then resolve done.tail rest
    else if plainDots segment == ['.'] then resolve done rest
    else resolve (String.ofList (encode pathSet segment) :: done) rest

/-- The segments of a path. -/
def segments (kind : Kind) (s : List Char) : List String :=
  let path := s.takeWhile fun c => c != '?' && c != '#'
  let slashed := path.map fun c => if isSlash kind c then '/' else c
  match slashed with
  | '/' :: rest => resolve [] (splitOn '/' rest)
  | _ => resolve [] (splitOn '/' slashed)

/-- Reads what follows the scheme. -/
def afterScheme (scheme : String) (s : List Char) : Except Fault Url := do
  let kind := Kind.ofScheme scheme
  match kind with
  | .web =>
    let (host, rest) ← authority kind (s.dropWhile (isSlash kind))
    .ok ⟨scheme, host, segments kind rest⟩
  | .file =>
    match s with
    | a :: b :: rest =>
      if isSlash kind a && isSlash kind b then
        let (host, rest) ← fileAuthority rest
        .ok ⟨scheme, host, segments kind rest⟩
      else .ok ⟨scheme, none, segments kind s⟩
    | _ => .ok ⟨scheme, none, segments kind s⟩
  | .foreign =>
    match s with
    | '/' :: '/' :: rest =>
      let (host, rest) ← authority kind rest
      .ok ⟨scheme, host, segments kind rest⟩
    | '/' :: _ => .ok ⟨scheme, none, segments kind s⟩
    | _ => .ok ⟨scheme, none, [String.ofList (s.takeWhile fun c => c != '?' && c != '#')]⟩

/-- Reads an absolute URL. -/
def parse (text : String) : Except Fault Url :=
  match splitScheme (clean text.toList) with
  | none => .error .relative
  | some (scheme, rest) => afterScheme scheme rest

/-- The scheme is one that files are read from. -/
def isRemote (u : Url) : Bool := u.scheme == "http" || u.scheme == "https"

/-- Reads the URL of a remote file. -/
def ofRemote (text : String) : Except Failure Url :=
  match parse text with
  | .error fault => .error (.invalidUrl (text ++ ": " ++ fault.message))
  | .ok u =>
    if u.isRemote then .ok u
    else .error (.invalidUrl ("unsupported scheme " ++ Text.quoted u.scheme ++ " in " ++ text))

/-- The name of the file at a URL: the last segment of the path, or the host if that is empty. -/
def fileName (u : Url) : String :=
  match u.path.getLast? with
  | some name => if name.isEmpty then u.host.getD "" else name
  | none => u.host.getD ""

/-- A URL is accepted for a remote file if it has a scheme of the web. -/
theorem ofRemote_eq_ok_iff {text : String} {u : Url} :
    ofRemote text = .ok u ↔ parse text = .ok u ∧ u.isRemote = true := by
  unfold ofRemote
  cases hparse : parse text with
  | error fault => simp
  | ok v =>
    simp only [Except.ok.injEq]
    split
    · rename_i hr
      simp only [Except.ok.injEq, iff_self_and]
      rintro rfl
      exact hr
    · rename_i hr
      simp only [reduceCtorEq, false_iff, not_and]
      rintro rfl
      exact hr

end Url

end RemoteFile
