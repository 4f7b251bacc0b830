import Flowchart.Json.Decode

/-!
The measures of a drawing. Lengths are numbers of any scalar type: floats when a diagram is
drawn, and any exact field where its properties are stated.
-/
namespace Flowchart

/-- Arithmetic on lengths. `larger` and `smaller` pass over what is not a number. -/
class Scalar (α : Type) extends Add α, Sub α, Mul α, Div α where
  ofNat : Nat → α
  larger : α → α → α
  smaller : α → α → α
  below : α → α → Bool
  isFinite : α → Bool

instance : Scalar Float where
  ofNat n := n.toUInt64.toFloat
  larger a b := if a.isNaN then b else if b.isNaN then a else if a < b then b else a
  smaller a b := if a.isNaN then b else if b.isNaN then a else if b < a then b else a
  below a b := a < b
  isFinite := Float.isFinite

/-- Box measures and gaps. -/
structure Config (α : Type) where
  minNodeWidth : α
  maxNodeWidth : α
  /-- The width of one character of a label. -/
  charWidth : α
  /-- The room around a label. -/
  labelPadding : α
  nodeHeight : α
  /-- The height of diamonds. -/
  diamondHeight : α
  /-- Between neighbouring boxes of a rank. -/
  horizontalGap : α
  /-- Between ranks. -/
  verticalGap : α
  /-- Around the whole drawing. -/
  margin : α
  /-- The width of an edge that passes through a rank. -/
  dummyWidth : α
  /-- The most sweeps that reduce crossings. -/
  maxCrossingPasses : Nat

namespace Config

/-- The measures that are used unless others are given. -/
def standard [Scalar α] : Config α where
  minNodeWidth := Scalar.ofNat 150
  maxNodeWidth := Scalar.ofNat 300
  charWidth := Scalar.ofNat 8
  labelPadding := Scalar.ofNat 40
  nodeHeight := Scalar.ofNat 50
  diamondHeight := Scalar.ofNat 80
  horizontalGap := Scalar.ofNat 80
  verticalGap := Scalar.ofNat 100
  margin := Scalar.ofNat 40
  dummyWidth := Scalar.ofNat 20
  maxCrossingPasses := 24

/-- A length of the configuration. -/
def lengthField (name : String) (set : Float → Config Float → Config Float) :
    Json.Field (Config Float) :=
  ⟨name.toList, false, fun j c => return set (← j.asFloat) c⟩

/-- How a configuration is read: every measure may be left out. -/
def schema : Json.Schema (Config Float) where
  name := "LayoutConfig".toList
  blank := standard
  fields :=
    [lengthField "min_node_width" fun x c => { c with minNodeWidth := x },
     lengthField "max_node_width" fun x c => { c with maxNodeWidth := x },
     lengthField "char_width" fun x c => { c with charWidth := x },
     lengthField "label_padding" fun x c => { c with labelPadding := x },
     lengthField "node_height" fun x c => { c with nodeHeight := x },
     lengthField "diamond_height" fun x c => { c with diamondHeight := x },
     lengthField "horizontal_gap" fun x c => { c with horizontalGap := x },
     lengthField "vertical_gap" fun x c => { c with verticalGap := x },
     lengthField "margin" fun x c => { c with margin := x },
     lengthField "dummy_width" fun x c => { c with dummyWidth := x },
     ⟨"max_crossing_passes".toList, false, fun j c => return { c with maxCrossingPasses := ← j.asCount }⟩]
  other := Json.ignoring
  asList := true

/-- Reads a configuration; what is left out keeps its standard value. -/
def ofJsonText (t : Text) : Json.Decoded (Config Float) := Json.decodeText t (schema.read .streamed)

end Config
end Flowchart
