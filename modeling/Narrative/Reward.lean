import Narrative.Json.Decoder

set_option autoImplicit false

/-!
# Rewards and audio commands

A reward bundles experience, credits, ability points and items. An action may carry
a whole reward as a template and spell single fields beside it; `RewardSpec.merge`
lets each spelled field win on its own.
-/

namespace Narrative

/-- One item line of a reward. Its quantity is taken as written, zero included. -/
structure RewardItem where
  item : String
  quantity : UInt32
deriving DecidableEq, Repr

/-- A bundle of rewards. -/
structure Reward where
  xp : Int64 := 0
  credits : Int64 := 0
  ap : Int64 := 0
  items : List RewardItem := []
deriving DecidableEq, Repr, Inhabited

/-- Decodes a line of a reward; the quantity is one if left out. -/
def RewardItem.decode : Decoder RewardItem :=
  Decoder.record fun levels => do
    let item ← FieldReader.required ["itemId", "item"] (Decoder.text levels)
    let quantity ← FieldReader.field "quantity" 1 (Decoder.quantity levels)
    return { item, quantity }

namespace Reward

/-- Whether a reward grants nothing at all. -/
def isEmpty (r : Reward) : Bool :=
  r.xp == 0 && r.credits == 0 && r.ap == 0 && r.items.isEmpty

/-- Decodes a reward; every field may be left out. -/
def decode : Decoder Reward :=
  Decoder.record fun levels => do
    let xp ← FieldReader.field "xp" 0 (Decoder.amount levels)
    let credits ← FieldReader.field "credits" 0 (Decoder.amount levels)
    let ap ← FieldReader.field "ap" 0 (Decoder.amount levels)
    let items ← FieldReader.field "items" [] (Decoder.list RewardItem.decode levels)
    return { xp, credits, ap, items }

end Reward

/-- A reward template with the fields that override it. -/
structure RewardSpec where
  base : Option Reward := none
  xp : Option Int64 := none
  credits : Option Int64 := none
  ap : Option Int64 := none
  items : Option (List RewardItem) := none
deriving DecidableEq, Repr, Inhabited

/-- The reward of a template: each field that is spelled replaces that of the template. -/
def RewardSpec.merge (spec : RewardSpec) : Reward :=
  let base := spec.base.getD {}
  { xp := spec.xp.getD base.xp
    credits := spec.credits.getD base.credits
    ap := spec.ap.getD base.ap
    items := spec.items.getD base.items }

/-- The parameters of an audio-layer command. -/
structure AudioCommand where
  layer : Option String
  cue : Option String
  gain : Option Gain
  fadeMs : Option UInt32
  looping : Option Bool
  stop : Bool
deriving DecidableEq, Repr

/-- Decodes an audio command; only `stop` has to be given, but a command by position spells
out every field. -/
def AudioCommand.decode : Decoder AudioCommand :=
  Decoder.record fun levels => do
    let layer ← FieldReader.spelled "layer" (Decoder.optional Decoder.text levels)
    let cue ← FieldReader.spelled "cue_id" (Decoder.optional Decoder.text levels)
    let gain ← FieldReader.spelled "gain" (Decoder.optional Decoder.gain levels)
    let fadeMs ← FieldReader.spelled "fade_ms" (Decoder.optional Decoder.quantity levels)
    let looping ← FieldReader.spelled "looping" (Decoder.optional Decoder.flag levels)
    let stop ← FieldReader.required ["stop"] (Decoder.flag levels)
    return { layer, cue, gain, fadeMs, looping, stop }

instance : ToJson RewardItem :=
  ⟨fun i => .object [("itemId", toJson i.item), ("quantity", toJson i.quantity)]⟩

instance : ToJson Reward :=
  ⟨fun r => .object [("xp", toJson r.xp), ("credits", toJson r.credits), ("ap", toJson r.ap),
    ("items", toJson r.items)]⟩

/-- A gain is shown by its bits. -/
instance : ToJson Gain := ⟨fun g => toJson g.bits⟩

instance : ToJson AudioCommand :=
  ⟨fun a => .object [("layer", toJson a.layer), ("cue_id", toJson a.cue), ("gain", toJson a.gain),
    ("fade_ms", toJson a.fadeMs), ("looping", toJson a.looping), ("stop", toJson a.stop)]⟩

end Narrative
