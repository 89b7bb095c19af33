import RemoteFile.Fetch
import RemoteFile.Json.Text

/-!
# Remote files

Opening a remote file probes the object for its size, and retries that as any operation. Closing it
calls off every read and closes all connections; closing it again changes nothing.

Main statement:

* `File.checked_ok` : only files whose options and URL are accepted are opened.
-/

namespace RemoteFile

/-- What is known of a file once it is open. -/
structure FileInfo where
  /-- The last segment of the path of its URL. -/
  name : String
  /-- The number of its bytes. -/
  size : Nat
  /-- The version of its content. -/
  etag : Option String
  /-- When it was changed last. -/
  lastModified : Option String
deriving DecidableEq, Repr

namespace FileInfo

/-- The file at a URL, as a probe has found it. -/
def ofProbe (url : Url) (p : Probe) : FileInfo := ⟨url.fileName, p.size, p.etag, p.lastModified⟩

/-- The file as JSON. -/
def toJson (i : FileInfo) : String :=
  Json.object
    [("name", Json.string i.name), ("size", Json.nat i.size),
      ("etag", Json.option Json.string i.etag),
      ("last_modified", Json.option Json.string i.lastModified)]

end FileInfo

/-- A probe that is under way. -/
inductive Probing (τ : Type) where
  /-- About to ask for the metadata of this URL. -/
  | unsent (url : String)
  /-- Waiting for the answer. -/
  | sent (ticket : τ) (deadline : Nat)

namespace Probing

variable {σ τ : Type}

/-- One turn of a probe. -/
def step (s : Setting σ τ) (p : Probing τ) (w : World σ) :
    Turn (Probing τ) (Except Failure Probe) × World σ :=
  match p with
  | .unsent url =>
    let (ticket, w) := (w.count Counters.requested).issue s (.probe url)
    (.moved (.sent ticket (s.options.timeouts.response.timerFrom w.now)), w)
  | .sent ticket deadline =>
    match s.net.arrival ticket (some deadline) w.now with
    | .pending wake => (.waits p wake, w)
    | .late => (.done (.error (noResponse s.options.timeouts.response)), w)
    | .here => (.done (s.net.probed ticket w.net), w)

/-- Probes of the current URL. -/
def attempts (s : Setting σ τ) : Attempts (World σ) (Probing τ) Probe where
  step := step s
  drop _ w := w
  start _ source := .unsent source.url

end Probing

/-- A file that is being opened. -/
structure Opening (τ : Type) where
  /-- Where it is. -/
  url : Url
  /-- The probe, with its retries. -/
  probe : Operation (Probing τ)

namespace File

variable {σ τ : Type}

/-- The parts of the URL of a file, if its options are accepted and there can be a file. -/
def checked (o : Options) (url : String) : Except Failure Url :=
  match o.validate with
  | .error f => .error f
  | .ok () => Url.ofRemote url

/-- Begins to open a file. -/
def begin (url : Url) : Opening τ := ⟨url, Operation.fresh⟩

/-- One turn of opening a file. -/
def openStep (s : Setting σ τ) (o : Opening τ) (w : World σ) :
    Turn (Opening τ) (Except Failure FileInfo) × World σ :=
  match o.probe.step s (Probing.attempts s) w with
  | (.moved p, w) => (.moved { o with probe := p }, w)
  | (.waits p wake, w) => (.waits { o with probe := p } wake, w)
  | (.done (.error f), w) => (.done (.error f), w)
  | (.done (.ok p), w) =>
    let info := FileInfo.ofProbe o.url p
    (.done (.ok info), w.note (.fileOpened info.name info.size))

/-- Opening a file as a task. -/
def opener (s : Setting σ τ) : Actor (World σ) (Opening τ) (Except Failure FileInfo) :=
  ⟨openStep s, fun o w => o.probe.drop (Probing.attempts s) w⟩

/-- Calls off all reads. -/
def cancel (w : World σ) : World σ := { w with cancelled := true }

/-- Closes a file. -/
def close (s : Setting σ τ) (info : FileInfo) (w : World σ) : World σ :=
  if w.closed then w
  else
    let before := w.counters
    let w := (cancel { w with closed := true }).closePool s
    if s.options.dumpStats then w.note (.statistics info.name before) else w

theorem checked_ok {o : Options} {url : String} {u : Url} (h : checked o url = .ok u) :
    o.validate = .ok () ∧ Url.ofRemote url = .ok u := by
  unfold checked at h
  split at h
  · simp at h
  · rename_i hv
    exact ⟨hv, h⟩

theorem close_of_closed (s : Setting σ τ) (info : FileInfo) {w : World σ}
    (h : w.closed = true) : close s info w = w := by
  simp [close, h]

end File

end RemoteFile
