/-!
# Octet sequences

Octets as lists, with the big-endian reading and writing of numbers and the search for marks.
`Bytes.toNat_snoc` says how a further octet changes the number that a sequence denotes.
-/

namespace CertKeeper

/-- A finite sequence of octets. -/
abbrev Bytes := List UInt8

namespace Bytes

/-- The number whose base-256 digits, most significant first, are the given octets. -/
def toNat (b : Bytes) : Nat := b.foldl (fun n x => 256 * n + x.toNat) 0

/-- The number of base-256 digits of a number; zero has none. -/
def octetCount (n : Nat) : Nat := if n = 0 then 0 else n.log2 / 8 + 1

/-- The lowest `width` base-256 digits of a number, most significant first. -/
def ofNatWidth (width n : Nat) : Bytes :=
  (List.range width).reverse.map fun i => UInt8.ofNat (n >>> (8 * i))

/-- The base-256 digits of a number, most significant first and without leading zeros. -/
def ofNat (n : Nat) : Bytes := ofNatWidth (octetCount n) n

/-- The octets of an ASCII text; characters from another block keep their low eight bits only. -/
def ascii (s : String) : Bytes := s.toList.map fun c => UInt8.ofNat c.toNat

/-- A further octet multiplies the number by 256 and adds itself. -/
theorem toNat_snoc (b : Bytes) (x : UInt8) : toNat (b ++ [x]) = 256 * toNat b + x.toNat := by
  simp [toNat]

/-- A fixed width writing has exactly that many octets. -/
theorem length_ofNatWidth (width n : Nat) : (ofNatWidth width n).length = width := by
  simp [ofNatWidth]

/-- How many octets of a sequence are read until a mark is complete, of which the given number of
octets have been read already. After an octet that does not go on with the mark, the search starts
anew behind that octet. -/
def markEnd? (mark : Bytes) : Nat → Bytes → Option Nat
  | _, [] => none
  | found, x :: rest =>
    let found := if mark[found]? = some x then found + 1 else 0
    if found = mark.length then some 1 else (markEnd? mark found rest).map (· + 1)

/-- Cuts a sequence at a mark: what stands before it and what after. The mark is the first one that
is found without looking at any octet twice. -/
def cut? (mark b : Bytes) : Option (Bytes × Bytes) :=
  (markEnd? mark 0 b).map fun n => (b.take (n - mark.length), b.drop n)

end Bytes

/-- Order of octet sequences: the first differing octet decides, then the length. -/
def Bytes.le : Bytes → Bytes → Bool
  | [], _ => true
  | _ :: _, [] => false
  | x :: xs, y :: ys => if x = y then Bytes.le xs ys else x < y

/-- Reads items one after another until nothing is left. An item that takes no symbol ends the
reading without a result, so the number of symbols bounds the number of items. -/
def readAll {σ α : Type} (item : List σ → Option (α × List σ)) (s : List σ) : Option (List α) :=
  go s.length s
where
  /-- The reading with at most the given number of items. -/
  go : Nat → List σ → Option (List α)
    | _, [] => some []
    | 0, _ :: _ => none
    | n + 1, s =>
      match item s with
      | none => none
      | some (a, rest) => (go n rest).map (a :: ·)

end CertKeeper
