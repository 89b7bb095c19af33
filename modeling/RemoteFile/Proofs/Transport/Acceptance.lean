import RemoteFile.Proofs.Connection.Faithful
import RemoteFile.Proofs.Range.Coverage
import RemoteFile.Transport.Http

/-!
# What is accepted of a server

A response to a request for a range is handed out only if it is known to start where the range
does: a partial one has to name a span that starts there and runs exactly to the end of what was
asked for, as far as that end is known, and a whole one serves a range from the start of the object.
Everything else is refused, each kind of response with a failure of its own.

A server conforms if it answers the header of the request, as it reads it, with the bytes that the
header asks for and with the span and the length that these have. Whatever a conforming server
answers is accepted, so that the writer of requests, the server and the reader of responses agree.

Main statements:

* `Http.asked?_header` : a server reads in the header of a request what the range asks for.
* `Http.fetched_iff` : what is handed out, what is refused, and why.
-/

namespace RemoteFile

namespace Http

/-! ### Servers -/

/-- The number that a server reads. -/
def number? (s : List Char) : Option Nat :=
  if s.isEmpty || !s.all Char.isDigit then none else some (Text.digitsValue s)

/-- What a server reads in the header of a request for a range: the first byte, and the last one if
it is named. -/
def asked? : List Char → Option (Nat × Option Nat)
  | 'b' :: 'y' :: 't' :: 'e' :: 's' :: '=' :: r => do
    let (first, last) ← Text.splitOnce '-' r
    let first ← number? first
    if last.isEmpty then some (first, none)
    else do
      let last ← number? last
      if last < first then none else some (first, some last)
  | _ => none

/-- The last byte that is sent of an object of so many bytes. -/
def lastSent (size : Nat) (last : Option Nat) : Nat :=
  match last with
  | some last => min last (size - 1)
  | none => size - 1

/-- The response of a server to the header of a request says what it should, if the object has so
many bytes. -/
def Conforms (size : Nat) (header : String) (r : Reply) : Prop :=
  ∀ first last, asked? header.toList = some (first, last) → first < size →
    r.status = 206 ∧
      r.contentRange = some (ContentRange.text ⟨some (first, lastSent size last), some size⟩)

/-- A server that has the object tells the truth in its header: a partial response holds bytes of
the span that it names, and a whole one bytes from the start of the object. It need not hold all of
them. -/
structure Truthful (data : List UInt8) (r : Reply) : Prop where
  /-- A partial response. -/
  part : r.status = 206 → ∀ value c first last, r.contentRange = some value →
    ContentRange.parse value = .ok c → c.span = some (first, last) →
    r.body.payload <+: slice data first (last + 1)
  /-- A whole response. -/
  whole : r.status = 200 → r.body.payload <+: data

/-! ### Responses -/

/-- The response is known to start where the range does. -/
inductive Answers (range : ByteRange) (r : Reply) : Prop
  /-- A partial response with a span that answers the range. -/
  | part {value : String} {c : ContentRange} {last : Nat} (hs : r.status = 206)
      (hv : r.contentRange = some value) (hc : ContentRange.parse value = .ok c)
      (hm : c.Meets range last) : Answers range r
  /-- A whole response to a range from the start. -/
  | whole (hs : r.status = 200) (hstart : range.start = 0) : Answers range r

/-- Why a response is refused. -/
inductive Refuses (url : String) (range : ByteRange) (r : Reply) : Failure → Prop
  /-- A partial response that does not say what it holds. -/
  | silent (hs : r.status = 206) (hv : r.contentRange = none) :
      Refuses url range r (.malformed "206 without Content-Range")
  /-- A partial response whose header cannot be read. -/
  | unreadable {value : String} (hs : r.status = 206) (hv : r.contentRange = some value)
      (hc : ContentRange.parse? value.toList = none) :
      Refuses url range r (.malformed ("bad Content-Range: " ++ Text.quoted value))
  /-- A partial response with a span that does not answer the range. -/
  | elsewhere {value : String} {c : ContentRange} (hs : r.status = 206)
      (hv : r.contentRange = some value) (hc : ContentRange.parse value = .ok c)
      (hm : ∀ last, ¬ c.Meets range last) :
      Refuses url range r
        (.malformed ("asked for " ++ range.header ++ ", server sent " ++ value))
  /-- A whole response to a range further on. -/
  | whole (hs : r.status = 200) (hstart : 0 < range.start) : Refuses url range r .rangeNotSupported
  /-- Any other status. -/
  | status (hpart : r.status ≠ 206) (hwhole : r.status ≠ 200) :
      Refuses url range r (.status r.status url)

/-- What comes of a request for a range, once its answer is there. -/
def fetched (headers : List (String × String)) (peer : Peer) (url : String) (range : ByteRange)
    (now sent : Nat) : Except Failure Body :=
  let net := transport headers peer
  let (ticket, sent, _) := net.send now (.openRange url range) sent
  (net.opened ticket sent).1

/-! ### What a server reads -/

theorem number?_digits (n : Nat) : number? (Text.digits n) = some n := by
  have hall : (Text.digits n).all Char.isDigit = true :=
    List.all_eq_true.2 fun _ => Text.isDigit_of_mem_digits
  simp [number?, Text.digits_ne_nil, hall, Text.digitsValue_digits]

/-- A server reads in the header of a request what the range asks for. -/
theorem asked?_header (range : ByteRange) :
    asked? range.header.toList = some (range.start, range.namedStop.map (· - 1)) := by
  have hdash : ∀ b, Text.splitOnce '-' (Text.digits range.start ++ '-' :: b) =
      some (Text.digits range.start, b) := fun b =>
    Text.splitOnce_append b (Text.not_mem_digits rfl)
  cases hn : range.namedStop with
  | none =>
    have htext : range.header.toList =
        "bytes=".toList ++ (Text.digits range.start ++ '-' :: []) := by
      simp [ByteRange.header, hn, Text.digits]
    rw [htext]
    simp [asked?, hdash, number?_digits]
  | some stop =>
    obtain ⟨-, hlt⟩ := range.namedStop_eq_some_iff.1 hn
    have htext : range.header.toList =
        "bytes=".toList ++ (Text.digits range.start ++ '-' :: Text.digits (stop - 1)) := by
      simp [ByteRange.header, hn, Text.digits]
    rw [htext]
    simp [asked?, hdash, number?_digits, Text.digits_ne_nil]
    omega

theorem meets_of_lastSent {range : ByteRange} {size : Nat} (h : range.start < size) :
    (ContentRange.mk (some (range.start, lastSent size (range.namedStop.map (· - 1))))
      (some size)).Meets range (lastSent size (range.namedStop.map (· - 1))) := by
  refine ⟨rfl, fun stop hs hlt => ?_, fun hnone total htotal => ?_⟩
  · rw [range.namedStop_eq_some_iff.2 ⟨hs, hlt⟩]
    simp only [Option.map_some, lastSent, Option.getD_some]
    omega
  · cases htotal
    rw [range.namedStop_eq_none_iff.2 hnone]
    simp only [Option.map_none, lastSent]
    omega

/-! ### What is handed out and what is refused -/

section

variable {url : String} {range : ByteRange} {r : Reply}

/-- Every response answers the range, or there is a reason to refuse it. -/
theorem answers_or_refuses (url : String) (r : Reply) (range : ByteRange) :
    Answers range r ∨ ∃ f, Refuses url range r f := by
  by_cases hpart : r.status = 206
  · cases hv : r.contentRange with
    | none => exact .inr ⟨_, .silent hpart hv⟩
    | some value =>
      cases hc : ContentRange.parse value with
      | error f => exact .inr ⟨_, .unreadable hpart hv (ContentRange.parse_eq_error_iff.1 hc).1⟩
      | ok c =>
        by_cases hm : ∃ last, c.Meets range last
        · obtain ⟨last, hm⟩ := hm
          exact .inl (.part hpart hv hc hm)
        · exact .inr ⟨_, .elsewhere hpart hv hc (not_exists.1 hm)⟩
  · by_cases hwhole : r.status = 200
    · rcases Nat.eq_zero_or_pos range.start with hstart | hstart
      · exact .inl (.whole hwhole hstart)
      · exact .inr ⟨_, .whole hwhole hstart⟩
    · exact .inr ⟨_, .status hpart hwhole⟩

theorem Answers.refusal (hr : range.Fits) (h : Answers range r) : refusal url range r = none := by
  cases h with
  | part hs hv hc hm =>
    have hcovers := (ContentRange.covers_iff
      (.of_parse (ContentRange.parse_eq_ok_iff.1 hc)) hr).2 ⟨_, hm⟩
    simp [Http.refusal, hs, hv, hc, hcovers]
  | whole hs hstart => simp [Http.refusal, hs, hstart]

theorem Refuses.refusal {f : Failure} (hr : range.Fits) (h : Refuses url range r f) :
    refusal url range r = some f := by
  cases h with
  | silent hs hv => simp [Http.refusal, hs, hv]
  | unreadable hs hv hc =>
    simp [Http.refusal, hs, hv, ContentRange.parse_eq_error_iff.2 ⟨hc, rfl⟩]
  | @elsewhere value c hs hv hc hm =>
    have hcovers : c.covers range = false := by
      rw [← Bool.not_eq_true,
        ContentRange.covers_iff (.of_parse (ContentRange.parse_eq_ok_iff.1 hc)) hr]
      exact not_exists.2 hm
    simp [Http.refusal, hs, hv, hc, hcovers]
  | whole hs hstart => simp [Http.refusal, hs, Nat.ne_of_gt hstart]
  | status hpart hwhole => simp [Http.refusal, hpart, hwhole]

theorem accepted_eq_ok_iff (hr : range.Fits) {b : Body} :
    accepted url range r = .ok b ↔ Answers range r ∧ r.body = b := by
  rw [accepted]
  constructor
  · intro h
    rcases answers_or_refuses url r range with ha | ⟨f, hf⟩
    · rw [ha.refusal hr] at h
      cases h
      exact ⟨ha, rfl⟩
    · rw [hf.refusal hr] at h
      cases h
  · rintro ⟨ha, rfl⟩
    rw [ha.refusal hr]

theorem accepted_eq_error_iff (hr : range.Fits) {f : Failure} :
    accepted url range r = .error f ↔ Refuses url range r f := by
  rw [accepted]
  constructor
  · intro h
    rcases answers_or_refuses url r range with ha | ⟨g, hg⟩
    · rw [ha.refusal hr] at h
      cases h
    · rw [hg.refusal hr] at h
      cases h
      exact hg
  · intro hf
    rw [hf.refusal hr]

/-- What answers a range of a server that tells the truth is the object from the start of the
range on. -/
theorem Answers.payload {data : List UInt8} (h : Answers range r) (ht : Truthful data r) :
    r.body.payload <+: data.drop range.start := by
  cases h with
  | part hs hv hc hm => exact (ht.part hs _ _ _ _ hv hc hm.span).trans (prefix_of_slice _ _ _)
  | whole hs hstart =>
    rw [hstart, List.drop_zero]
    exact ht.whole hs

theorem Conforms.answers {size : Nat} (h : Conforms size range.header r)
    (hstart : range.start < size) (hsize : size < positionLimit) : Answers range r := by
  obtain ⟨hs, hv⟩ := h _ _ (asked?_header range) hstart
  have hm := meets_of_lastSent hstart
  have hlast : lastSent size (range.namedStop.map (· - 1)) < size := by
    unfold lastSent
    split <;> omega
  have hordered : range.start ≤ lastSent size (range.namedStop.map (· - 1)) := by
    cases hn : range.namedStop with
    | none =>
      simp only [Option.map_none, lastSent]
      omega
    | some stop =>
      have hlt := (range.namedStop_eq_some_iff.1 hn).2
      simp only [Option.map_some, lastSent]
      omega
  refine .part hs hv (ContentRange.parse_eq_ok_iff.2
    (ContentRange.parse?_text ⟨?_, .inr nofun⟩ ⟨?_, ?_⟩)) hm
  · rintro first last heq
    cases heq
    exact hordered
  · rintro first last heq
    cases heq
    exact hlast.trans hsize
  · rintro total heq
    cases heq
    exact hsize

end

/-- **What is handed out, what is refused, and why.** A request for a range carries the header of
the range. Its response is handed out if and only if it is known to answer the range, and refused if
and only if there is a reason to. The bytes that are handed out are those of the object from the
start of the range on, as long as the server tells the truth; and what a conforming server answers
is handed out. -/
theorem fetched_iff {headers : List (String × String)} {peer : Peer} {url : String}
    {range : ByteRange} {now sent : Nat} {delay : Option Nat} {r : Reply} (hr : range.Fits)
    (hurl : isSendable headers url = true)
    (hpeer : peer sent (request headers (.openRange url range)) = (delay, .ok r)) :
    (request headers (.openRange url range)).headers.head? = some ("range", range.header) ∧
      (∀ b, fetched headers peer url range now sent = .ok b ↔ Answers range r ∧ r.body = b) ∧
      (∀ f, fetched headers peer url range now sent = .error f ↔ Refuses url range r f) ∧
      (∀ data b, Truthful data r → fetched headers peer url range now sent = .ok b →
        ∀ i (h : i < b.payload.length), data[range.start + i]? = some b.payload[i]) ∧
      ∀ size, range.start < size → size < positionLimit → Conforms size range.header r →
        fetched headers peer url range now sent = .ok r.body := by
  have hfetched : fetched headers peer url range now sent = accepted url range r := by
    have hurl' : isSendable headers (urlOf (.openRange url range)) = true := hurl
    simp only [fetched, transport, receive, hurl', if_true, hpeer, opened]
    rfl
  rw [hfetched]
  refine ⟨rfl, fun _ => accepted_eq_ok_iff hr, fun _ => accepted_eq_error_iff hr, ?_, ?_⟩
  · intro data b htruth hb i hi
    obtain ⟨hanswers, rfl⟩ := (accepted_eq_ok_iff hr).1 hb
    obtain ⟨rest, hrest⟩ := hanswers.payload htruth
    rw [← List.getElem?_drop, ← hrest, List.getElem?_append_left hi, List.getElem?_eq_getElem hi]
  · intro size hstart hsize hconforms
    exact (accepted_eq_ok_iff hr).2 ⟨hconforms.answers hstart hsize, rfl⟩

/-- The answer to a request for the middle two of the four bytes 10, 11, 12 and 13. -/
def middle : Reply := ⟨206, some "bytes 1-2/4", none, none, some "2", [.chunk [11], .chunk [12]]⟩

theorem fetched_middle :
    (ByteRange.between 1 3).Fits ∧ isSendable [] "http://h/o" = true ∧
      Conforms 4 (ByteRange.between 1 3).header middle ∧ Truthful [10, 11, 12, 13] middle ∧
      fetched [] (fun _ _ => (some 0, .ok middle)) "http://h/o" (.between 1 3) 0 0 =
        .ok [.chunk [11], .chunk [12]] ∧
      ([10, 11, 12, 13] : List UInt8)[1 + 1]? = some 12 := by
  have hfits : (ByteRange.between 1 3).Fits :=
    ⟨by decide, fun stop h => by cases h; decide⟩
  have hurl : isSendable [] "http://h/o" = true := rfl
  have hconforms : Conforms 4 (ByteRange.between 1 3).header middle := by
    intro first last hasked _
    have htold : asked? (ByteRange.between 1 3).header.toList = some (1, some 2) := rfl
    rw [htold] at hasked
    cases hasked
    exact ⟨rfl, rfl⟩
  have htruthful : Truthful [10, 11, 12, 13] middle := by
    refine ⟨?_, nofun⟩
    rintro - value c first last hv hc hspan
    cases hv
    cases (show ContentRange.parse "bytes 1-2/4" = .ok ⟨some (1, 2), some 4⟩ from rfl).symm.trans hc
    cases hspan
    exact ⟨[], rfl⟩
  obtain ⟨-, -, -, hbytes, haccepts⟩ :=
    @fetched_iff [] (fun _ _ => (some 0, .ok middle)) _ _ 0 0 _ _ hfits hurl rfl
  have hfetched := haccepts 4 (by decide) (by decide) hconforms
  exact ⟨hfits, hurl, hconforms, htruthful, hfetched, hbytes _ _ htruthful hfetched 1 (by decide)⟩

end Http

end RemoteFile
