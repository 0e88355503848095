import TypedLine.BinaryFloat.Rounding

/-!
# Arithmetic

Products, quotients and changes of format. Each result is the exact one, rounded once. The sign
of a product or quotient is that of the two signs together, also where the result is a zero or an
infinity; where no number fits, the result is not-a-number.
-/

namespace TypedLine.BinaryFloat

variable {f g : FloatFormat}

/-- The product. Zero times infinity is not a number. -/
def mul : BinaryFloat f → BinaryFloat f → BinaryFloat f
  | .number s a, .number t b =>
    let negative := s != t
    if a.val = f.infinityRank ∨ b.val = f.infinityRank then
      if a.val = 0 ∨ b.val = 0 then .nan else ofRank negative f.infinityRank
    else ofRank negative (f.nearestRank (f.units a * f.units b) f.unitsPerOne)
  | _, _ => .nan

/-- The quotient. A number divided by zero is infinite; zero divided by zero and infinity divided
by infinity are not numbers. -/
def div : BinaryFloat f → BinaryFloat f → BinaryFloat f
  | .number s a, .number t b =>
    let negative := s != t
    if a.val = f.infinityRank then
      if b.val = f.infinityRank then .nan else ofRank negative f.infinityRank
    else if b.val = f.infinityRank then ofRank negative 0
    else if b.val = 0 then
      if a.val = 0 then .nan else ofRank negative f.infinityRank
    else ofRank negative (f.nearestRank (f.units a * f.unitsPerOne) (f.units b))
  | _, _ => .nan

/-- The nearest number of another format. -/
def convert : BinaryFloat f → BinaryFloat g
  | .nan => .nan
  | .number negative a =>
    if a.val = f.infinityRank then ofRank negative g.infinityRank
    else ofRatio negative (f.units a) f.unitsPerOne

end TypedLine.BinaryFloat
