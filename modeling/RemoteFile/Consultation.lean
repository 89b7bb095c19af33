import RemoteFile.Job
import RemoteFile.Renewal

/-!
# Sessions with a resolver

A resolver in use by those who keep the URLs that they were given: each look at the current URL is
remembered, and any of the remembered ones can be handed back for renewal.
-/

namespace RemoteFile

/-- A resolver in use. -/
structure Consultation (σ : Type) where
  /-- The world of the resolver. -/
  world : World σ
  /-- The URLs that were looked at, in order. -/
  sources : List Source

namespace Consultation

variable {σ τ β : Type}

/-- The first look at a resolver. -/
def fresh (w : World σ) : Consultation σ := ⟨w, [w.resolver.current]⟩

/-- The time of a consultation. -/
def timeline : Timeline (Consultation σ) :=
  ⟨fun x => x.world.now, fun t x => { x with world := { x.world with now := t } }⟩

/-- The world of a consultation. -/
def focus : Focus (Consultation σ) (World σ) := ⟨world, fun w x => { x with world := w }⟩

/-- The URL with a number; the current one if there is none with it. -/
def source (x : Consultation σ) (number : Nat) : Source :=
  x.sources.getD number x.world.resolver.current

/-- Looks at the current URL. -/
def look (x : Consultation σ) : Source × Consultation σ :=
  (x.world.resolver.current, { x with sources := x.sources ++ [x.world.resolver.current] })

/-- Hands back the URL with a number for renewal. -/
def renew (number : Nat) (early : Bool) : Job (Consultation σ) Renewal β :=
  .task fun x => Renewal.start (x.source number) early

/-- Renewals as tasks. -/
def actor (s : Setting σ τ) : Actor (Consultation σ) Renewal (Except Failure Source) :=
  (Renewal.actor s).within focus

end Consultation

end RemoteFile
