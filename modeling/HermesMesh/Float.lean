import HermesMesh.Common
import HermesMesh.Text
import Mathlib.Algebra.GroupWithZero.Nat

/-!
# Float parts

How `float.py` splits a text for Telegram: `html.escape`, the cuts of the escaped text, and the parts
with their prefixes and the suffix that names what was left out. A string is the list of its
characters here, as the code slices it.
-/

namespace HermesMesh.Float

/-- `_CHUNK_LIMIT`. -/
def chunkLimit : ℕ := 4000

/-- `_MAX_PARTS`. -/
def maxParts : ℕ := 8

/-- `html.escape(ch, quote=False)`. -/
def escapeChar (ch : Char) : List Char :=
  if ch = '&' then "&amp;".toList
  else if ch = '<' then "&lt;".toList
  else if ch = '>' then "&gt;".toList
  else [ch]

/-- `html.escape(text, quote=False)`. -/
def htmlEscape (text : List Char) : List Char := text.flatMap escapeChar

/-- `f"[{i}/{total}] "`. -/
def marker (i total : ℕ) : List Char :=
  "[".toList ++ Nat.toDigits 10 i ++ "/".toList ++ Nat.toDigits 10 total ++ "] ".toList

/-- `_marker_len`. -/
def markerLen (total : ℕ) : ℕ := (marker total total).length

/-- `_safe_cut`. -/
def safeCut (s : List Char) (limit : ℕ) : ℕ :=
  if s.length ≤ limit then s.length
  else
    match rfind ['&'] s limit with
    | none => limit
    | some amp =>
      match findFrom ';' s amp with
      | some semi => if semi < limit then limit else if 0 < amp then amp else semi + 1
      | none => if 0 < amp then amp else limit

/-- `_next_cut`. -/
def nextCut (s : List Char) (limit : ℕ) : ℕ :=
  if s.length ≤ limit then s.length
  else
    match ["\n\n", "\n", " "].findSome? fun sep =>
      (rfind sep.toList s limit).map (· + sep.toList.length) with
    | some cut => safeCut s cut
    | none => safeCut s limit

/-- The cut of one turn of the loop, which is positive in any case. -/
def chunkCut (s : List Char) (limit : ℕ) : ℕ :=
  if nextCut s limit = 0 then min limit s.length else nextCut s limit

theorem chunkCut_pos {s : List Char} {limit : ℕ} (hlimit : 0 < limit) (hs : s ≠ []) :
    0 < chunkCut s limit := by
  have hlen := List.length_pos_of_ne_nil hs
  unfold chunkCut
  split_ifs <;> omega

/-- The loop of `_chunk_escaped`, over what is left of the text. -/
def chunkLoop (limit : ℕ) (hlimit : 0 < limit) (s : List Char) : List (List Char) :=
  if _hs : s = [] then []
  else s.take (chunkCut s limit) :: chunkLoop limit hlimit (s.drop (chunkCut s limit))
termination_by s.length
decreasing_by
  have hcut := chunkCut_pos hlimit _hs
  have hlen := List.length_pos_of_ne_nil _hs
  rw [List.length_drop]
  omega

/-- `_chunk_escaped`. -/
def chunkEscaped (escaped : List Char) (limit : ℕ) : Except PyError (List (List Char)) :=
  if hlimit : 0 < limit then .ok (chunkLoop limit hlimit escaped)
  else .error (.valueError "chunk limit must be positive")

/-- The loop of `_raw_count_for_escaped`. -/
def rawCountForEscaped (escapedLen : ℕ) : ℕ → List Char → ℕ
  | _, [] => 0
  | total, ch :: rest =>
    let unit := htmlEscape [ch]
    if escapedLen < total + unit.length then 0
    else rawCountForEscaped escapedLen (total + unit.length) rest + 1

/-- A comma after every three digits, from the last one on. -/
def insertCommas : List Char → List Char
  | a :: b :: c :: d :: rest => a :: b :: c :: ',' :: insertCommas (d :: rest)
  | digits => digits

/-- `f"{n:,}"`. -/
def withCommas (n : ℕ) : List Char := (insertCommas (Nat.toDigits 10 n).reverse).reverse

/-- `_truncation_suffix`. -/
def truncationSuffix (rawRemaining : ℕ) : List Char :=
  "… +".toList ++ withCommas rawRemaining ++ " chars not floated".toList

/-- An edit of the last part. -/
def onLast {α : Type*} (f : α → α) : List α → List α
  | [] => []
  | [x] => [f x]
  | x :: xs => x :: onLast f xs

/-- The parts with their prefixes. -/
def number (total : ℕ) (parts : List (List Char)) : List (List Char) :=
  (parts.zipIdx 1).map fun (part, i) => marker i total ++ part

/-- How much of the last part is kept beside the suffix. -/
def cutLast (lastLimit : ℕ) (part : List Char) : List Char :=
  if lastLimit < part.length then
    let cut := safeCut part lastLimit
    part.take (if cut = 0 then min lastLimit part.length else cut)
  else part

/-- `_build_parts`: the parts, their number, and how many raw characters were dropped. -/
def buildParts (text escaped : List Char) : Except PyError (List (List Char) × ℕ × ℕ) := do
  if escaped.length ≤ chunkLimit then return ([escaped], 1, 0)
  let markerOnlyLimit := chunkLimit - markerLen maxParts
  let base ← chunkEscaped escaped markerOnlyLimit
  if base.length ≤ maxParts then return (number base.length base, base.length, 0)
  let rawTotal := text.length
  let lastLimit := max 1 (markerOnlyLimit - (truncationSuffix rawTotal).length)
  let head := onLast (cutLast lastLimit) (base.take maxParts)
  let floatedRaw := rawCountForEscaped (head.map (·.length)).sum 0 text
  let remainingRaw := rawTotal - floatedRaw
  return (onLast (· ++ truncationSuffix remainingRaw) (number maxParts head), maxParts, remainingRaw)

end HermesMesh.Float
