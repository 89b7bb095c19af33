import RemoteFile.Options.Json
import RemoteFile.Options.Load
import RemoteFile.Proofs.Json.Object

/-!
# Options in JSON objects

Pool options and timeouts are written as the members of an object, and any of these members, in any
order and among members of other names, load as the default with the fields replaced that are given.
Durations are cut to whole milliseconds on the way, at most `2 ^ 64 - 1` of them, and nothing else
is lost: to write, to load and to write again gives the same text.

Main statements:

* `PoolOptions.restores`, `Timeouts.restores` : the fields read what is written for them.
* `PoolOptions.load_toJson`, `Timeouts.load_toJson` : what comes back is cut, and nothing else.
* `restores_what_is_given` : all that is loaded from what is written.
-/

namespace RemoteFile

open Json

/-! ### Cut durations -/

namespace Duration

/-- A duration as it is loaded from what it is written as. -/
def cut (d : Duration) : Duration := ofMillis d.writtenMillis

/-- Whole milliseconds, and no more than can be written. -/
structure Whole (d : Duration) : Prop where
  /-- Nothing is left over. -/
  exact : d.nanos % nanosPerMilli = 0
  /-- Their number is written as it is. -/
  small : d.toMillis < wordLimit

theorem writtenMillis_lt (d : Duration) : d.writtenMillis < wordLimit := by
  have hpos : 0 < wordLimit := by decide
  unfold writtenMillis
  omega

theorem writtenMillis_cut (d : Duration) : d.cut.writtenMillis = d.writtenMillis := by
  have hlt := d.writtenMillis_lt
  rw [cut, writtenMillis, toMillis_ofMillis]
  omega

theorem cut_eq {d : Duration} (h : d.Whole) : d.cut = d := by
  have hwritten : d.writtenMillis = d.toMillis := Nat.min_eq_left (Nat.le_sub_one_of_lt h.small)
  have hexact : d.nanos / nanosPerMilli * nanosPerMilli = d.nanos :=
    Nat.div_mul_cancel (Nat.dvd_of_mod_eq_zero h.exact)
  rw [cut, hwritten, ofMillis, toMillis, hexact]

end Duration

/-! ### Fields -/

section Fields

variable {ρ : Type} {take : List String → ρ → ρ} {name : String}

theorem toList_nat (n : Nat) : (Json.nat n).toList = Text.digits n := by
  rw [Json.nat, Nat.toString_eq_ofList_toDigits, String.toList_ofList, Text.digits]

theorem toList_option_nat (x : Option Nat) : (Json.option Json.nat x).toList = nullableText x := by
  cases x with
  | none => rfl
  | some n => exact toList_nat n

theorem restores_of {α : Type} {read : List Char → Read α} {set : ρ → α → ρ} {a : α} {v : String}
    (hread : ∀ b r, Blanks b → Closes r → read (b ++ (v.toList ++ r)) = .ok (a, r))
    (htake : ∀ record, set record a = take [name] record) :
    (RecordField.of name read set).Restores take (name, v) := by
  refine ⟨rfl, fun record b r hb hr => ?_⟩
  simp only [RecordField.of, hread b r hb hr, htake]

theorem restores_natural {set : ρ → Nat → ρ} {n : Nat} (hn : n < wordLimit)
    (htake : ∀ record, set record n = take [name] record) :
    (RecordField.of name (natural wordLimit) set).Restores take (name, Json.nat n) :=
  restores_of (fun _ _ hb hr => by rw [toList_nat]; exact natural_digits hb hn hr) htake

theorem restores_nullable {set : ρ → Option Nat → ρ} {x : Option Nat}
    (hx : ∀ n, x = some n → n < wordLimit) (htake : ∀ record, set record x = take [name] record) :
    (RecordField.of name (nullable (natural wordLimit)) set).Restores take
      (name, Json.option Json.nat x) :=
  restores_of (fun _ _ hb hr => by rw [toList_option_nat]; exact nullable_nullableText hb hx hr)
    htake

theorem restores_duration {set : ρ → Duration → ρ} {d : Duration}
    (htake : ∀ record, set record d.cut = take [name] record) :
    (Duration.field name set).Restores take (name, Json.nat d.writtenMillis) :=
  restores_natural d.writtenMillis_lt htake

/-- The new value of a field that is among those of these names, and else the old one. -/
def replaced {α : Type} (field : String) (names : List String) (new old : α) : α :=
  if field ∈ names then new else old

theorem replaced_cons {α : Type} (field name : String) (names : List String) (new old : α) :
    replaced field (name :: names) new old =
      replaced field names new (replaced field [name] new old) := by
  simp only [replaced, List.mem_cons, List.not_mem_nil, or_false]
  split <;> split <;> simp_all

end Fields

/-! ### Pool options -/

namespace PoolOptions

/-- The numbers of the options fit into words. -/
structure Fits (p : PoolOptions) : Prop where
  /-- The number of connections. -/
  maxConns : p.maxConns < wordLimit
  /-- The gap that is read. -/
  maxSkip : p.maxSkip < wordLimit
  /-- The bytes of a request, if there is a limit. -/
  maxRangeLen : ∀ n, p.maxRangeLen = some n → n < wordLimit

/-- The members that the options are written as. -/
def written (p : PoolOptions) : List (String × String) :=
  [("max_conns", Json.nat p.maxConns), ("max_skip", Json.nat p.maxSkip),
    ("stale_after", Json.nat p.staleAfter.writtenMillis),
    ("max_range_len", Json.option Json.nat p.maxRangeLen)]

/-- The options with their duration cut. -/
def cut (p : PoolOptions) : PoolOptions := { p with staleAfter := p.staleAfter.cut }

/-- The options `p` with the fields of these names replaced by those of `x`. -/
def taking (x : PoolOptions) (names : List String) (p : PoolOptions) : PoolOptions where
  maxConns := replaced "max_conns" names x.maxConns p.maxConns
  maxSkip := replaced "max_skip" names x.maxSkip p.maxSkip
  staleAfter := replaced "stale_after" names x.staleAfter p.staleAfter
  maxRangeLen := replaced "max_range_len" names x.maxRangeLen p.maxRangeLen

variable (x : PoolOptions)

theorem replaces : Replaces (x.written.map Prod.fst) x.cut.taking := by
  refine ⟨fun p => rfl, fun name rest p => ?_, fun name hname p => ?_⟩
  · simp only [taking, replaced_cons _ name rest]
  · simp only [written, List.map_cons, List.map_nil, List.mem_cons, not_or] at hname
    obtain ⟨hconns, hskip, hstale, hlen, -⟩ := hname
    simp [taking, replaced, Ne.symm hconns, Ne.symm hskip, Ne.symm hstale, Ne.symm hlen]

theorem restores (hx : x.Fits) :
    List.Forall₂ (RecordField.Restores x.cut.taking) fields x.written :=
  .cons (restores_natural hx.maxConns fun _ => rfl) <|
    .cons (restores_natural hx.maxSkip fun _ => rfl) <|
    .cons (restores_duration fun _ => rfl) <|
    .cons (restores_nullable hx.maxRangeLen fun _ => rfl) .nil

theorem nodup_written : (x.written.map Prod.fst).Nodup := by
  simp [written]

theorem load_of_some (hx : x.Fits) {l : List (String × List Char)} {text : String}
    (h : ObjectText l text.toList) (hl : Partial x.written l) :
    load text = .ok (x.cut.taking (l.map Prod.fst) standard) :=
  load_of_partial x.replaces (x.restores hx) x.nodup_written h hl

theorem objectText_toJson : ObjectText (texts x.written) x.toJson.toList :=
  objectText_object x.written

/-- What comes back is cut. -/
theorem load_toJson (hx : x.Fits) : load x.toJson = .ok x.cut :=
  x.load_of_some hx x.objectText_toJson (partial_texts x.nodup_written)

theorem cut_eq (h : x.staleAfter.Whole) : x.cut = x := by
  rw [cut, Duration.cut_eq h]

theorem toJson_cut : x.cut.toJson = x.toJson := by
  simp only [toJson, cut, Duration.writtenMillis_cut]

end PoolOptions

/-! ### Timeouts -/

namespace Timeouts

/-- The members that the timeouts are written as. -/
def written (t : Timeouts) : List (String × String) :=
  [("connect", Json.nat t.connect.writtenMillis), ("idle", Json.nat t.idle.writtenMillis)]

/-- The timeouts with their durations cut. -/
def cut (t : Timeouts) : Timeouts := ⟨t.connect.cut, t.idle.cut⟩

/-- The timeouts `t` with those of these names replaced by those of `y`. -/
def taking (y : Timeouts) (names : List String) (t : Timeouts) : Timeouts where
  connect := replaced "connect" names y.connect t.connect
  idle := replaced "idle" names y.idle t.idle

variable (y : Timeouts)

theorem replaces : Replaces (y.written.map Prod.fst) y.cut.taking := by
  refine ⟨fun t => rfl, fun name rest t => ?_, fun name hname t => ?_⟩
  · simp only [taking, replaced_cons _ name rest]
  · simp only [written, List.map_cons, List.map_nil, List.mem_cons, not_or] at hname
    obtain ⟨hconnect, hidle, -⟩ := hname
    simp [taking, replaced, Ne.symm hconnect, Ne.symm hidle]

theorem restores : List.Forall₂ (RecordField.Restores y.cut.taking) fields y.written :=
  .cons (restores_duration fun _ => rfl) <| .cons (restores_duration fun _ => rfl) .nil

theorem nodup_written : (y.written.map Prod.fst).Nodup := by
  simp [written]

theorem load_of_some {l : List (String × List Char)} {text : String}
    (h : ObjectText l text.toList) (hl : Partial y.written l) :
    load text = .ok (y.cut.taking (l.map Prod.fst) standard) :=
  load_of_partial y.replaces y.restores y.nodup_written h hl

theorem objectText_toJson : ObjectText (texts y.written) y.toJson.toList :=
  objectText_object y.written

/-- What comes back is cut. -/
theorem load_toJson : load y.toJson = .ok y.cut :=
  y.load_of_some y.objectText_toJson (partial_texts y.nodup_written)

theorem cut_eq (hconnect : y.connect.Whole) (hidle : y.idle.Whole) : y.cut = y := by
  rw [cut, Duration.cut_eq hconnect, Duration.cut_eq hidle]

theorem toJson_cut : y.cut.toJson = y.toJson := by
  simp only [toJson, cut, Duration.writtenMillis_cut]

end Timeouts

/-! ### Both -/

/-- **What is loaded is what was written.** An object that gives any of the members that the options
are written as, in any order, among members of other names with any values, loads as the default
with exactly these fields replaced, their durations cut to milliseconds. What is written is such an
object: it loads as the options themselves up to that cut, as they are if there is nothing to cut,
and it is written again as the same text. -/
theorem restores_what_is_given (x : PoolOptions) (y : Timeouts) (hx : x.Fits) :
    (∀ (l : List (String × List Char)) (text : String), ObjectText l text.toList →
      Partial x.written l →
        PoolOptions.load text = .ok (x.cut.taking (l.map Prod.fst) .standard)) ∧
    (∀ (l : List (String × List Char)) (text : String), ObjectText l text.toList →
      Partial y.written l →
        Timeouts.load text = .ok (y.cut.taking (l.map Prod.fst) .standard)) ∧
    (ObjectText (texts x.written) x.toJson.toList ∧ PoolOptions.load x.toJson = .ok x.cut ∧
      (x.staleAfter.Whole → x.cut = x) ∧ x.cut.toJson = x.toJson) ∧
    (ObjectText (texts y.written) y.toJson.toList ∧ Timeouts.load y.toJson = .ok y.cut ∧
      (y.connect.Whole → y.idle.Whole → y.cut = y) ∧ y.cut.toJson = y.toJson) :=
  ⟨fun _ _ h hl => x.load_of_some hx h hl, fun _ _ h hl => y.load_of_some h hl,
    ⟨x.objectText_toJson, x.load_toJson hx, x.cut_eq, x.toJson_cut⟩,
    ⟨y.objectText_toJson, y.load_toJson, y.cut_eq, y.toJson_cut⟩⟩

/-- One number beside a member of another name, one duration that is cut, and all fields again. -/
theorem restores_what_two_objects_give :
    PoolOptions.load (Json.object [("note", "[ ]"), ("max_skip", "65536")]) =
        .ok { PoolOptions.standard with maxSkip := 65536 } ∧
      Timeouts.load (Json.object [("idle", "2")]) =
        .ok { Timeouts.standard with idle := Duration.ofMillis 2 } ∧
      PoolOptions.load (PoolOptions.toJson ⟨4, 65536, Duration.ofMillis 1500, some 7⟩) =
        .ok ⟨4, 65536, Duration.ofMillis 1500, some 7⟩ ∧
      Timeouts.load (Timeouts.toJson ⟨Duration.ofMillis 9, ⟨2500000⟩⟩) =
        .ok ⟨Duration.ofMillis 9, Duration.ofMillis 2⟩ := by
  obtain ⟨hpool, htimeouts, ⟨-, hagain, hsame, -⟩, -, hcut, -⟩ :=
    restores_what_is_given ⟨4, 65536, Duration.ofMillis 1500, some 7⟩
      ⟨Duration.ofMillis 9, ⟨2500000⟩⟩ ⟨by decide, by decide, by rintro n ⟨⟩; decide⟩
  refine ⟨?_, ?_, ?_, ?_⟩
  · refine hpool _ _ (objectText_object _) ⟨by decide, ?_, by decide⟩
    rintro e (_ | ⟨_, _ | ⟨_, ⟨⟩⟩⟩) hnot
    · exact .emptyList (b := [' ']) (by simp [Blanks, isBlank])
    · exact absurd (by decide) hnot
  · refine htimeouts _ _ (objectText_object _) ⟨by decide, ?_, by decide⟩
    rintro e (_ | ⟨_, ⟨⟩⟩) hnot
    exact absurd (by decide) hnot
  · rw [hagain, hsame ⟨by decide, by decide⟩]
  · exact hcut

end RemoteFile
