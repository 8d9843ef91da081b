set_option autoImplicit false

/-! # Color maps

Colors at equal steps of a scale, from dark to light.
-/

namespace SweepCharts

inductive Colormap where
  | viridis | magma
  deriving DecidableEq, Repr

namespace Colormap

/-- The colors from the low end of the scale. -/
def hexStops : Colormap → List String
  | viridis =>
    ["#440154", "#472d7b", "#3b528b", "#2c728e", "#21918c", "#28ae80", "#5ec962", "#addc30",
     "#fde725"]
  | magma =>
    ["#000004", "#180f3d", "#440f76", "#721f81", "#9e2f7f", "#cd4071", "#f1605d", "#fd9668",
     "#feca8d", "#fcfdbf"]

def ofName? : String → Option Colormap
  | "viridis" => some viridis
  | "magma" => some magma
  | _ => none

end Colormap

end SweepCharts
