import Mathlib

set_option autoImplicit false

/- Texts as bytes, and the lines that a `bufio.Scanner` cuts them into. -/
namespace EraOne.ByteText

abbrev Bytes := List UInt8

def ascii (s : String) : Bytes := s.toList.map fun c => c.toNat.toUInt8

def lineFeed : UInt8 := 10

/-- The texts between line feeds, and what stands behind the last if it is not empty. -/
def pieces : Bytes → List Bytes
  | [] => []
  | b :: rest =>
      if b = lineFeed then [] :: pieces rest
      else
        match pieces rest with
        | [] => [[b]]
        | line :: lines => (b :: line) :: lines

/-- `dropCR`. -/
def dropCR (line : Bytes) : Bytes := if line.getLast? = some 13 then line.dropLast else line

/-- `bufio.MaxScanTokenSize`. -/
def maxScanTokenSize : Nat := 65536

/-- The lines up to the first that is too long, and whether there is one. -/
def scanLines (text : Bytes) : List Bytes × Bool :=
  (((pieces text).takeWhile fun line => line.length < maxScanTokenSize).map dropCR,
    (pieces text).any fun line => maxScanTokenSize ≤ line.length)

def unlines (lines : List Bytes) : Bytes := lines.flatMap (· ++ [lineFeed])

theorem pieces_line (line rest : Bytes) (clean : lineFeed ∉ line) :
    pieces (line ++ lineFeed :: rest) = line :: pieces rest := by
  induction line with
  | nil => rw [List.nil_append, pieces, if_pos rfl]
  | cons b line ih =>
      rw [List.mem_cons, not_or] at clean
      rw [List.cons_append, pieces, if_neg (Ne.symm clean.1), ih clean.2]

theorem pieces_unlines (lines : List Bytes) (clean : ∀ line ∈ lines, lineFeed ∉ line) :
    pieces (unlines lines) = lines := by
  induction lines with
  | nil => rfl
  | cons line lines ih =>
      have shape : unlines (line :: lines) = line ++ lineFeed :: unlines lines := by
        simp [unlines]
      rw [shape, pieces_line line _ (clean line List.mem_cons_self),
        ih fun other member => clean other (List.mem_cons_of_mem _ member)]

theorem dropCR_prefixed (line : Bytes) : dropCR line <+: line := by
  unfold dropCR
  split
  · exact List.dropLast_prefix line
  · exact List.prefix_rfl

/-- Without an error every line is scanned. -/
theorem scanLines_ok (text : Bytes) (ok : (scanLines text).2 = false) :
    (scanLines text).1 = (pieces text).map dropCR := by
  have short : ∀ line ∈ pieces text, decide (line.length < maxScanTokenSize) = true := by
    intro line member
    have fits := List.any_eq_false.mp ok line member
    simpa using fits
  rw [scanLines, List.takeWhile_eq_self_iff.mpr short]

end EraOne.ByteText
