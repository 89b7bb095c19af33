import RemoteFile.Proofs.File.Held
import RemoteFile.Proofs.Pool.Conservation
import RemoteFile.Proofs.Transport.Script

/-!
# Conservation of connections in a file

A file settles its accounts from the first probe on. Opening it makes requests and opens no
connection, and from then on it is a pool.

Main statement:

* `connections_are_conserved` : connections are conserved along every run of a pool or of a file.
-/

namespace RemoteFile

variable {σ τ : Type} {s : Setting σ τ} {shift : σ → σ → Prop} {w₀ : World σ}

namespace File

theorem pool_of_opening {o : Crowd (World σ) Url (Opening τ) (Except Failure FileInfo)}
    (h : Crowd.Reachable (rules s shift) (Crowd.empty w₀) o) : o.world.pool = w₀.pool := by
  refine related (R := fun w w' => w'.pool = w.pool) (fun _ => rfl) (fun h h' => h'.trans h)
    (fun h => h.beside.pool) (fun {p t w w'} h => ?_) (fun h => by cases h <;> rfl) h
  cases p with
  | unsent url =>
    simp only [Probing.step, World.issue_eq] at h
    cases h
    rfl
  | sent ticket deadline =>
    simp only [Probing.step] at h
    split at h <;> cases h <;> rfl

theorem settles_probe {p : Probing τ} {t : Turn (Probing τ) (Except Failure Probe)}
    {w w' : World σ} (h : p.step s w = (t, w')) :
    w.Settles s.net.Discreet ⟨0, []⟩ 0 0 w' ⟨0, []⟩ := by
  cases p with
  | unsent url =>
    have hissue := World.settles_issue s (.probe url) w ⟨0, []⟩
    simp only [Probing.step] at h
    cases h
    exact hissue
  | sent ticket deadline =>
    simp only [Probing.step] at h
    split at h <;> cases h <;> exact .refl _ w _

theorem settles_opening {o : Crowd (World σ) Url (Opening τ) (Except Failure FileInfo)}
    (h : Crowd.Reachable (rules s shift) (Crowd.empty w₀) o) :
    w₀.Settles s.net.Discreet ⟨0, []⟩ 0 0 o.world ⟨0, []⟩ := by
  refine related (R := fun w w' => w.Settles s.net.Discreet ⟨0, []⟩ 0 0 w' ⟨0, []⟩)
    (fun w => .refl _ w _) (fun h h' => h.trans h')
    (fun h => h.unbooked.settles _) settles_probe (fun h => ?_) h
  cases h with
  | pass millis | shift net => exact World.settles_of_eq rfl rfl rfl

end File

/-- **Connections are conserved.**  In every run of a pool, while a file is opened, and in every run
of the file from then on, all connections, requests and slots are accounted for, and no connection
is counted twice. -/
theorem connections_are_conserved (s : Setting σ τ) (shift : σ → σ → Prop) (net : σ)
    (url : String) (expiresAt : Option Int) :
    (∀ visited c, Crowd.Path (PoolRead.rules s shift)
        (Crowd.empty (World.fresh net url expiresAt)) visited c →
      c.world.Conserved s (PoolRead.bodies c) (Crowd.shut visited)
        (Crowd.acquired PoolRead.attempt? visited)) ∧
      ∀ o, Crowd.Reachable (File.rules s shift) (Crowd.empty (World.fresh net url expiresAt)) o →
        o.world.Conserved s 0 0 0 ∧
          ∀ info visited c, Crowd.Path (FileRead.rules (s.ofSize info.size) info shift)
              (Crowd.empty o.world) visited c →
            c.world.Conserved s (FileRead.bodies c) (Crowd.shut visited)
              (Crowd.acquired FileRead.attempt? visited) := by
  refine ⟨fun visited c h => ?_, fun o ho => ⟨?_, fun info visited c h => ?_⟩⟩
  · exact (Crowd.settles_of_path PoolRead.pooling h rfl).conserved
  · exact (File.settles_opening ho).conserved
  · have hread := Crowd.settles_of_path FileRead.pooling h (File.pool_of_opening ho)
    have hall := (File.settles_opening ho).trans hread
    rw [Nat.zero_add, Nat.zero_add] at hall
    exact hall.conserved

/-- Four bytes. Three responses have what is asked for, and the last one is silent. -/
def fourResponses : Script.State :=
  ⟨[⟨some 0, .ok ⟨4, none, none⟩⟩],
    [⟨some 0, .ok [.chunk [50, 51, 52, 53]]⟩, ⟨some 0, .ok [.chunk [53]]⟩,
      ⟨some 0, .ok [.chunk [50, 51, 52, 53]]⟩, ⟨some 0, .ok [.silence]⟩]⟩

/-- Two connections that skip nothing, and no attempt is made again. -/
def twoSlots : Setting Script.State Script.Ticket :=
  Script.setting 4 ⟨2, 0, .ofSeconds 10, none⟩ 1

/-- A read through a pool requests a range, and is dropped. -/
def dropEarly : Option (Crowd (World Script.State) Wanted (PoolRead Script.Ticket)
    (Except Failure (List UInt8))) :=
  (Crowd.empty (World.fresh fourResponses "https://example.com/a.bin" none)).play
    (PoolRead.rules twoSlots fun _ _ => False) [.join ⟨0, 1⟩, .turn 0, .turn 0, .drop 0]

/-- The file of the four bytes is opened. -/
def openFour : Option (Crowd (World Script.State) Url (Opening Script.Ticket)
    (Except Failure FileInfo)) :=
  (Crowd.empty (World.fresh fourResponses "https://example.com/a.bin" none)).play
    (File.rules twoSlots fun _ _ => False)
    (.join ⟨"https", some "example.com", ["a.bin"]⟩ :: List.replicate 3 (.turn 0))

/-- What is known of the four bytes. -/
def fourInfo : FileInfo := ⟨"a.bin", 4, none, none⟩

/-- Reads of the four bytes. -/
abbrev fourRules : Crowd.Rules (World Script.State) Wanted (FileRead Script.Ticket)
    (Except Failure (List UInt8)) :=
  FileRead.rules (twoSlots.ofSize 4) fourInfo fun _ _ => False

/-- Four reads come to their ends, and a fifth one waits for its first chunk. -/
def fiveReads : List (Crowd.Deed Wanted) :=
  [(⟨0, 1⟩, 6), (⟨3, 1⟩, 6), (⟨1, 1⟩, 4), (⟨0, 1⟩, 6), (⟨3, 1⟩, 6)].flatMap fun k =>
    .join k.1 :: List.replicate k.2 (.turn 0)

/-- The four bytes are read. -/
def readFour : Option (Crowd (World Script.State) Wanted (FileRead Script.Ticket)
    (Except Failure (List UInt8))) :=
  openFour.bind fun o => (Crowd.empty o.world).play fourRules fiveReads

/-- The file is closed while it is read. -/
def closeFour (c : Crowd (World Script.State) Wanted (FileRead Script.Ticket)
    (Except Failure (List UInt8))) :
    Crowd (World Script.State) Wanted (FileRead Script.Ticket) (Except Failure (List UInt8)) :=
  { c with world := File.close (twoSlots.ofSize 4) fourInfo c.world }

/-- What there is, and what is told of it: how many connections are idle and read from, how many
were opened and used again, and how many ranges were requested; then the numbers of the connections
that were evicted and discarded. -/
def inventory {κ α : Type} (fetch? : α → Option (Fetch Script.Ticket))
    (c : Crowd (World Script.State) κ α (Except Failure (List UInt8))) :
    List Nat × List Nat × List Nat :=
  ([c.world.pool.idle.length, Fetch.total Fetch.bodies (c.attempts fetch?),
    c.world.counters.connsOpened, c.world.counters.connsReused, c.world.requests.length],
    c.world.evictions, c.world.discards)

/-- A read that is dropped between its request and the response. And a file that is closed after it
has opened four connections: one was evicted, one discarded, one was idle and one is read from. -/
theorem connections_are_conserved_of_five :
    (∃ visited c, Crowd.Path (PoolRead.rules twoSlots fun _ _ => False)
        (Crowd.empty (World.fresh fourResponses "https://example.com/a.bin" none)) visited c ∧
      inventory PoolRead.attempt? c = ([0, 0, 0, 0, 1], [], []) ∧
      Crowd.acquired PoolRead.attempt? visited = 1) ∧
    ∃ o visited c, Crowd.Reachable (File.rules twoSlots fun _ _ => False)
        (Crowd.empty (World.fresh fourResponses "https://example.com/a.bin" none)) o ∧
      Crowd.Path fourRules (Crowd.empty o.world) visited c ∧
      inventory FileRead.attempt? c = ([0, 1, 4, 1, 4], [1], [2]) ∧
      Crowd.shut visited = 1 ∧ Crowd.acquired FileRead.attempt? visited = 5 := by
  obtain ⟨hpool, hfile⟩ := connections_are_conserved twoSlots (fun _ _ => False) fourResponses
    "https://example.com/a.bin" none
  have hdropping : dropEarly.map (inventory PoolRead.attempt?) =
      some ([0, 0, 0, 0, 1], [], []) := rfl
  have hclosing : readFour.map (fun c => inventory FileRead.attempt? (closeFour c)) =
      some ([0, 1, 4, 1, 4], [1], [2]) := rfl
  obtain ⟨c, hdrop, hleft⟩ := Option.map_eq_some_iff.1 hdropping
  obtain ⟨c', hread, hleft'⟩ := Option.map_eq_some_iff.1 hclosing
  obtain ⟨o, hopen, hplay⟩ := Option.bind_eq_some_iff.1 hread
  obtain ⟨visited, hp⟩ := Crowd.path_of_play .nil hdrop
  obtain ⟨_, ho⟩ := Crowd.path_of_play .nil hopen
  obtain ⟨visited', hp'⟩ := Crowd.path_of_play .nil hplay
  have hclosed : Crowd.Path fourRules (Crowd.empty o.world) (closeFour c' :: visited')
      (closeFour c') := hp'.snoc (.outside _ _ (.close _))
  refine ⟨⟨visited, c, hp, hleft, ?_⟩, o, _, _, ho.reachable, hclosed, hleft', ?_⟩
  · have hhanded := (hpool visited c hp).handed
    simp only [inventory, Prod.mk.injEq, List.cons.injEq] at hleft
    omega
  · obtain ⟨hconns, -, hhanded, honce⟩ := (hfile o ho.reachable).2 fourInfo _ _ hclosed
    obtain ⟨hevicted, hdiscarded, -⟩ := honce Script.discreet
    simp only [inventory, Prod.mk.injEq, List.cons.injEq] at hleft'
    obtain ⟨⟨hidle, hbodies, hopened, hreused, hranges, -⟩, hevictions, hdiscards⟩ := hleft'
    rw [hevicted, hdiscarded, hopened, hidle, hevictions, hdiscards, FileRead.bodies,
      hbodies] at hconns
    simp only [List.length_singleton] at hconns
    omega

end RemoteFile
