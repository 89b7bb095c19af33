import RemoteFile.Proofs.File.Crowd
import RemoteFile.Proofs.Pool.Sound

/-!
# Reads of a file are sound

Over a transport that serves an object, a file that was opened has the size of the object, and a
read of it that succeeds yields exactly the bytes of the object that were wanted: all of them, or
all up to the end. This holds whatever else goes on, and whatever the transport fails to do.

Main statements:

* `File.size_of_opened` : an opened file has the size of the object.
* `FileRead.sound_step` : a turn of a read keeps it sound, and yields exactly what was wanted.
* `FileRead.bytes_of_object` : so does every read of an opened file that succeeds.
-/

namespace RemoteFile

variable {σ τ : Type} {s : Setting σ τ} {shift : σ → σ → Prop} {data : List UInt8}
  {v : Service s.net shift data} {w w' : World σ}

/-! ### Opening -/

namespace Probing

/-- A probe is sound if it waits for the answer to its own request. -/
def Sound (v : Service s.net shift data) (w : World σ) : Probing τ → Prop
  | .unsent _ => True
  | .sent ticket _ => ∃ url, v.awaits w.net ticket (.probe url)

theorem Sound.onward {p : Probing τ} (hp : p.Sound v w) (h : w.Onward v w') : p.Sound v w' := by
  cases p with
  | unsent url => trivial
  | sent ticket deadline =>
    obtain ⟨url, hurl⟩ := hp
    exact ⟨url, h.net.awaits _ _ hurl⟩

/-- A turn of a probe is sound, and the size that it tells is right. -/
theorem sound_step {p : Probing τ} {t : Turn (Probing τ) (Except Failure Probe)} (hw : w.Sound v)
    (hp : p.Sound v w) (h : p.step s w = (t, w')) :
    t.Keeps v (fun w p => Sound v w p) (fun a => a.size = data.length) w w' := by
  cases p with
  | unsent url =>
    simp only [step, World.issue_eq] at h
    cases h
    obtain ⟨hlater, hawaits⟩ :=
      v.sent hw.net (rfl : s.net.send w.now (.probe url) w.net = _)
    exact Turn.keeps_of_next ⟨hlater, hw.idle⟩ rfl ⟨url, hawaits⟩
  | sent ticket deadline =>
    obtain ⟨url, hurl⟩ := hp
    simp only [step] at h
    split at h <;> cases h
    · exact Turn.keeps_of_next hw.onward rfl ⟨url, hurl⟩
    · exact Turn.keeps_error hw.onward _
    · refine ⟨hw.onward, nofun, fun a ha => v.probed hw.net hurl ?_⟩
      exact Turn.done.inj ha

end Probing

namespace File

theorem sound_openStep {o : Opening τ} {t : Turn (Opening τ) (Except Failure FileInfo)}
    (hw : w.Sound v) (ho : o.probe.Good (Probing.Sound v) w) (h : openStep s o w = (t, w')) :
    t.Keeps v (fun w o => o.probe.Good (Probing.Sound v) w) (fun i => i.size = data.length)
      w w' := by
  obtain ⟨ot, w₁, hstep, ⟨hbeside, -⟩, hnext, hdone⟩ := next?_openStep h
  have hk := Operation.keeps_step (fun _ _ => trivial)
    (fun hp ha => Probing.sound_step hw hp ha) hw ho hstep
  refine hk.map hbeside hnext (fun p hp a ha => ?_) fun info hinfo => ?_
  · exact (hp a ha).onward (hk.world.sound.onward.beside hbeside)
  · obtain ⟨p, hp, rfl⟩ := hdone info hinfo
    exact ⟨p, hp, id⟩

theorem onward_outside (hw : w.Sound v) (h : Outside shift w w') : w.Onward v w' := by
  cases h with
  | pass millis => exact ⟨.refl hw.net, hw.idle⟩
  | shift _ hs => exact hw.shifted hs

/-- An opened file has the size of the object. -/
theorem size_of_opened {o : Crowd (World σ) Url (Opening τ) (Except Failure FileInfo)}
    (hw : w.Sound v) (h : Crowd.Reachable (rules s shift) (Crowd.empty w) o) :
    o.world.Sound v ∧ ∀ url info, (url, .ok info) ∈ o.results → info.size = data.length := by
  refine World.Sound.separate (fun _ w o => o.probe.Good (Probing.Sound v) w)
    (fun _ _ => nofun) ?_ sound_openStep ?_ onward_outside hw h
  · exact fun ho h a ha => (ho a ha).onward h
  · exact fun hw => Operation.onward_drop (fun _ => hw.onward) hw _

theorem onward_close (hw : w.Sound v) (info : FileInfo) : w.Onward v (close s info w) := by
  have hcancel : (cancel { w with closed := true }).Sound v := ⟨hw.net, hw.idle⟩
  have hclose : w.Onward v ((cancel { w with closed := true }).closePool s) :=
    ⟨hcancel.closePool.net, hcancel.closePool.idle⟩
  unfold close
  split
  · exact hw.onward
  · dsimp only
    split
    · exact hclose.beside ((World.Beside.refl _).note _)
    · exact hclose

end File

/-! ### Reading -/

/-- What a read yields is what was wanted of the object, all of it or all up to the end. -/
structure Wanted.Met (data : List UInt8) (k : Wanted) (bytes : List UInt8) : Prop where
  /-- There is a position to read at. -/
  offset_le : k.offset ≤ data.length
  /-- No byte is missing. -/
  length_eq : bytes.length = min k.len (data.length - k.offset)
  /-- They are the bytes from that position on. -/
  bytes : bytes <+: data.drop k.offset

namespace FileRead

/-- The pieces that are there are the object from the wanted position on, and the next one is read
where they end. -/
structure Fills (v : Service s.net shift data) (k : Wanted) (len : Nat)
    (pieces : List (List UInt8)) (filled : Nat) (next : PoolRead τ) (w : World σ) : Prop where
  /-- There is a position to read at. -/
  offset_le : k.offset ≤ data.length
  /-- As much is read as there is. -/
  len_eq : len = min k.len (data.length - k.offset)
  /-- The pieces are those of the object. -/
  bytes : pieces.reverse.flatten <+: data.drop k.offset
  /-- They are so many bytes. -/
  length_eq : pieces.reverse.flatten.length = filled
  /-- No more than wanted. -/
  filled_le : filled ≤ len
  /-- The next one is read where they end. -/
  next : next.Sound v (k.offset + filled) (len - filled) w

/-- A read of a file is sound. -/
structure Sound (v : Service s.net shift data) (k : Wanted) (w : World σ) (r : FileRead τ) :
    Prop where
  /-- It reads at the wanted position. -/
  offset_eq : r.offset = k.offset
  /-- At first it wants everything. -/
  starting : r.phase = .starting → r.len = k.len
  /-- Then it stitches pieces together. -/
  filling : ∀ {pieces : List (List UInt8)} {filled : Nat} {next : PoolRead τ},
    r.phase = .filling pieces filled next → Fills v k r.len pieces filled next w

variable {k : Wanted} {r : FileRead τ} {len filled : Nat} {pieces : List (List UInt8)}
  {next : PoolRead τ}

theorem Fills.onward (hf : Fills v k len pieces filled next w) (h : w.Onward v w') :
    Fills v k len pieces filled next w' :=
  ⟨hf.offset_le, hf.len_eq, hf.bytes, hf.length_eq, hf.filled_le, hf.next.onward h⟩

theorem Sound.onward (hr : r.Sound v k w) (h : w.Onward v w') : r.Sound v k w' :=
  ⟨hr.offset_eq, hr.starting, fun hphase => (hr.filling hphase).onward h⟩

theorem sound_start (k : Wanted) (w : World σ) :
    (start k.offset k.len : FileRead τ).Sound v k w :=
  ⟨rfl, fun _ => rfl, nofun⟩

theorem Fills.extend {bytes : List UInt8} (hf : Fills v k len pieces filled next w)
    (hb : bytes <+: data.drop (k.offset + filled)) :
    (bytes :: pieces).reverse.flatten <+: data.drop k.offset ∧
      (bytes :: pieces).reverse.flatten.length = filled + bytes.length := by
  have hflatten : (bytes :: pieces).reverse.flatten = pieces.reverse.flatten ++ bytes := by
    rw [List.reverse_cons, List.flatten_append, List.flatten_singleton]
  rw [hflatten]
  refine ⟨prefix_drop_append hf.bytes ?_, ?_⟩
  · rw [hf.length_eq]
    exact hb
  · rw [List.length_append, hf.length_eq]

/-- **A turn of a read of a file is sound.**  It keeps the world and the read sound, and what the
read yields is what was wanted of the object. -/
theorem sound_step {t : Turn (FileRead τ) (Except Failure (List UInt8))}
    (hsize : s.size = data.length) (hw : w.Sound v) (hr : r.Sound v k w)
    (h : r.step s w = (t, w')) : t.Keeps v (fun w r => Sound v k w r) (k.Met data) w w' := by
  cases turned h with
  | refused hphase e => exact Turn.keeps_error hw.onward _
  | nothing hphase hle hnone =>
    rw [hr.offset_eq, hsize] at hle
    rw [hr.offset_eq, hr.starting hphase, hsize] at hnone
    exact Turn.keeps_ok hw.onward ⟨hle, hnone.symm, List.nil_prefix⟩
  | begins hphase hle =>
    refine Turn.keeps_of_next hw.onward rfl ⟨hr.offset_eq, nofun, fun hphase' => ?_⟩
    cases hphase'
    rw [hr.offset_eq, hsize] at hle
    rw [hr.offset_eq, hr.starting hphase, hsize]
    exact ⟨hle, rfl, List.nil_prefix, rfl, Nat.zero_le _, PoolRead.sound_start _ _ _⟩
  | called hphase hc harranges =>
    exact Turn.keeps_error ((PoolRead.onward_drop hw _).beside harranges.beside) _
  | goesOn hphase hstep hp ht =>
    have hf := hr.filling hphase
    have hk := PoolRead.sound_step hsize hw hf.next hstep
    refine Turn.keeps_of_next hk.world ht ⟨hr.offset_eq, nofun, fun hphase' => ?_⟩
    cases hphase'
    exact { hf with next := hk.next _ hp }
  | fails hphase hstep =>
    have hk := PoolRead.sound_step hsize hw (hr.filling hphase).next hstep
    exact Turn.keeps_error hk.world _
  | ends hphase hstep hle harranges =>
    have hf := hr.filling hphase
    have hk := PoolRead.sound_step hsize hw hf.next hstep
    have hpiece := hk.done _ rfl
    obtain ⟨hpieces, hcount⟩ := hf.extend hpiece.of_object
    refine Turn.keeps_ok (hk.world.beside harranges.beside) ⟨hf.offset_le, ?_, hpieces⟩
    -- the last piece is no longer than what was left, and the read ends with no less
    have hlength := hpiece.length_le
    have hfilled := hf.filled_le
    rw [hcount, ← hf.len_eq]
    omega
  | adds hphase hstep hlt =>
    have hf := hr.filling hphase
    have hk := PoolRead.sound_step hsize hw hf.next hstep
    obtain ⟨hpieces, hcount⟩ := hf.extend (hk.done _ rfl).of_object
    refine Turn.keeps_of_next hk.world rfl ⟨hr.offset_eq, nofun, fun hphase' => ?_⟩
    cases hphase'
    rw [hr.offset_eq]
    exact ⟨hf.offset_le, hf.len_eq, hpieces, hcount, hlt.le, PoolRead.sound_start _ _ _⟩

theorem onward_drop (hw : w.Sound v) (r : FileRead τ) : w.Onward v (r.drop s w) := by
  unfold drop
  split
  · exact hw.onward
  · exact PoolRead.onward_drop hw _

theorem onward_outside {info : FileInfo} (hw : w.Sound v) (h : Outside s info shift w w') :
    w.Onward v w' := by
  cases h with
  | pass millis | cancel => exact ⟨.refl hw.net, hw.idle⟩
  | close => exact File.onward_close hw info
  | shift _ hs => exact hw.shifted hs

theorem met_of_read {info : FileInfo} (hsize : s.size = data.length) (hw : w.Sound v)
    {c : Crowd (World σ) Wanted (FileRead τ) (Except Failure (List UInt8))}
    (h : Crowd.Reachable (rules s info shift) (Crowd.empty w) c) :
    ∀ k bytes, (k, .ok bytes) ∈ c.results → k.Met data bytes := by
  exact (World.Sound.separate (fun k w r => Sound v k w r)
    (fun w k => sound_start k w) (fun hr h => hr.onward h) (sound_step hsize)
    (fun hw => onward_drop hw _) onward_outside hw h).2

/-- **Reads of a file are sound.**  If a file was opened over a transport that serves an object, then
every read of it that succeeds, whatever else goes on, reads at a position within the object, and
yields exactly the bytes of the object from there on, as many as were wanted or all up to the end. -/
theorem bytes_of_object (v : Service s.net shift data) {w₀ : World σ}
    {o : Crowd (World σ) Url (Opening τ) (Except Failure FileInfo)} {url : Url} {info : FileInfo}
    {c : Crowd (World σ) Wanted (FileRead τ) (Except Failure (List UInt8))} {k : Wanted}
    {bytes : List UInt8} (hgood : v.good w₀.net) (hidle : w₀.pool.idle = [])
    (hopen : Crowd.Reachable (File.rules s shift) (Crowd.empty w₀) o)
    (hinfo : (url, .ok info) ∈ o.results)
    (hread : Crowd.Reachable (rules { s with size := info.size } info shift)
      (Crowd.empty o.world) c)
    (hk : (k, .ok bytes) ∈ c.results) :
    k.offset ≤ data.length ∧ bytes.length = min k.len (data.length - k.offset) ∧
      bytes = slice data k.offset (k.offset + bytes.length) := by
  have h₀ : w₀.Sound v := by
    refine ⟨hgood, ?_⟩
    rw [hidle]
    exact nofun
  obtain ⟨hworld, hsizes⟩ := File.size_of_opened h₀ hopen
  -- the same transport serves the file once its size is known
  have hfile : World.Sound (s := { s with size := info.size }) v o.world :=
    ⟨hworld.net, hworld.idle⟩
  have h := met_of_read (hsizes _ _ hinfo) hfile hread k bytes hk
  refine ⟨h.offset_le, h.length_eq, ?_⟩
  rw [slice, Nat.add_sub_cancel_left]
  exact List.prefix_iff_eq_take.1 h.bytes

/-- Five bytes, of which one request asks for two at most. -/
def fiveBytes : Setting Unit Call :=
  { net := Transport.prompt [10, 11, 12, 13, 14], renewer := none
    options := { Options.standard with pool := ⟨1, 0, .ofSeconds 10, some 2⟩ }
    size := 0, rests := false, sample := fun _ => 0, clock := fun _ => 0 }

/-- Where the five bytes are. -/
def fiveBytesUrl : Url := ⟨"https", some "example.com", ["a.bin"]⟩

/-- What is known of them once they are found. -/
def fiveBytesInfo : FileInfo := ⟨"a.bin", 5, none, none⟩

/-- The file of the five bytes is opened. -/
def openFiveBytes : Option (Crowd (World Unit) Url (Opening Call) (Except Failure FileInfo)) :=
  (Crowd.empty (World.fresh () "https://example.com/a.bin" none)).play
    (File.rules fiveBytes fun _ _ => False) (.join fiveBytesUrl :: List.replicate 3 (.turn 0))

/-- Three of the five bytes are read with two requests. -/
theorem bytes_of_object_of_three :
    ∃ o c, Crowd.Reachable (File.rules fiveBytes fun _ _ => False)
        (Crowd.empty (World.fresh () "https://example.com/a.bin" none)) o ∧
      (fiveBytesUrl, .ok fiveBytesInfo) ∈ o.results ∧
      Crowd.Reachable (rules { fiveBytes with size := 5 } fiveBytesInfo fun _ _ => False)
        (Crowd.empty o.world) c ∧
      (⟨1, 3⟩, .ok [11, 12, 13]) ∈ c.results ∧
      [11, 12, 13] = slice [10, 11, 12, 13, 14] 1 4 := by
  have hopening : openFiveBytes = some (openFiveBytes.get rfl) := rfl
  obtain ⟨opened, ho⟩ := Crowd.path_of_play .nil hopening
  have hinfo : (fiveBytesUrl, .ok fiveBytesInfo) ∈ (openFiveBytes.get rfl).results :=
    List.mem_cons_self
  have hreading : ((Crowd.empty (openFiveBytes.get rfl).world).play
      (rules { fiveBytes with size := 5 } fiveBytesInfo fun _ _ => False)
      (.join ⟨1, 3⟩ :: List.replicate 13 (.turn 0))).map Crowd.results =
        some [(⟨1, 3⟩, .ok [11, 12, 13])] := rfl
  obtain ⟨c, hc, hresults⟩ := Crowd.reachable_of_play _ hreading
  have hk : (⟨1, 3⟩, .ok [11, 12, 13]) ∈ c.results := by
    rw [hresults]
    exact List.mem_cons_self
  obtain ⟨-, -, hbytes⟩ := bytes_of_object (Transport.promptService _ fun _ _ => False) trivial rfl
    ho.reachable hinfo hc hk
  exact ⟨_, c, ho.reachable, hinfo, hc, hk, hbytes⟩

end FileRead

end RemoteFile
