import HermesMesh.Float
import HermesMesh.Lib.Units
import Mathlib.Data.List.Flatten

/-!
# Nothing is lost in a float

The parts of a float are the escapes of consecutive pieces of the text. Every cut of the escaped text
is a boundary of its units (`safeCut_boundary`, `nextCut_boundary`), so the loop cuts the text itself
(`chunkLoop_spec`), and the count that the suffix names is exact (`rawCount_append`).
`buildParts_floats` puts the three exits of `_build_parts` together.
-/

namespace HermesMesh.Float

open Lib

variable {text s : List Char} {limit n m : ℕ}

/-! ## The units of an escaped text -/

theorem delimited_escapeChar (ch : Char) : Delimited '&' ';' (escapeChar ch) := by
  unfold escapeChar
  split_ifs with h1 h2 h3
  · exact .inr ⟨"amp".toList, rfl, by decide, by decide⟩
  · exact .inr ⟨"lt".toList, rfl, by decide, by decide⟩
  · exact .inr ⟨"gt".toList, rfl, by decide, by decide⟩
  · exact .inl ⟨ch, rfl, h1⟩

theorem escapeChar_length (ch : Char) : 1 ≤ (escapeChar ch).length ∧ (escapeChar ch).length ≤ 5 := by
  unfold escapeChar
  split_ifs <;> simp

@[simp] theorem htmlEscape_nil : htmlEscape [] = [] := rfl

theorem htmlEscape_append (s t : List Char) : htmlEscape (s ++ t) = htmlEscape s ++ htmlEscape t :=
  List.flatMap_append

theorem htmlEscape_flatten (pieces : List (List Char)) :
    htmlEscape pieces.flatten = (pieces.map htmlEscape).flatten := by
  induction pieces with
  | nil => rfl
  | cons piece pieces ih => rw [List.flatten_cons, htmlEscape_append, ih, List.map_cons, List.flatten_cons]

theorem htmlEscape_eq_nil (h : htmlEscape s = []) : s = [] := by
  cases s with
  | nil => rfl
  | cons ch s =>
    have hlen := congrArg List.length h
    have hch := (escapeChar_length ch).1
    rw [htmlEscape, List.flatMap_cons, List.length_append, List.length_nil] at hlen
    omega

/-! ## Cuts -/

/-- A closed unit of an escaped text, from its opening to its closing symbol. -/
theorem findFrom_unit {ys zs : List Char} {ch : Char} {body : List Char}
    (hch : escapeChar ch = '&' :: (body ++ [';'])) (hbody : ';' ∉ body) :
    findFrom ';' (htmlEscape (ys ++ ch :: zs)) (htmlEscape ys).length =
      some ((htmlEscape ys).length + (escapeChar ch).length - 1) := by
  have hsplit : htmlEscape (ys ++ ch :: zs) =
      htmlEscape ys ++ (('&' :: body) ++ ';' :: htmlEscape zs) := by
    rw [htmlEscape_append]
    simp [htmlEscape, hch]
  have hopen : ';' ∉ '&' :: body := by
    rw [List.mem_cons, not_or]
    exact ⟨by decide, hbody⟩
  rw [findFrom_eq hsplit hopen, hch]
  simp

/-- **A safe cut** stands between two units. -/
theorem safeCut_boundary (text : List Char) (limit : ℕ) :
    Boundary escapeChar text (safeCut (htmlEscape text) limit) := by
  unfold safeCut
  split_ifs with hlen
  · exact boundary_length escapeChar text
  rcases boundary_or_inside escapeChar text limit (Nat.le_of_not_le hlen) with
    hlimit | ⟨ys, ch, zs, rfl, hlow, hhigh⟩
  · -- between two units: an entity that begins before the limit ends before it
    cases hamp : rfind ['&'] (htmlEscape text) limit with
    | none => exact hlimit
    | some amp =>
      obtain ⟨ys, zs, rfl, rfl⟩ := hlimit
      obtain ⟨hlt, hget, -⟩ := rfind_singleton_eq_some_iff.mp hamp
      rw [htmlEscape_append, htmlEscape, List.getElem?_append_left hlt] at hget
      obtain ⟨us, ch, vs, body, rfl, rfl, hch, hbody⟩ :=
        exists_unit_of_open delimited_escapeChar (by decide) ys amp hget
      have hfind : findFrom ';' (htmlEscape (us ++ ch :: vs ++ zs)) (us.flatMap escapeChar).length =
          some ((htmlEscape us).length + (escapeChar ch).length - 1) := by
        rw [List.append_assoc, List.cons_append]
        exact findFrom_unit hch hbody
      have hend : (htmlEscape us).length + (escapeChar ch).length - 1 <
          ((us ++ ch :: vs).flatMap escapeChar).length := by
        have hpos := (escapeChar_length ch).1
        rw [List.flatMap_append, List.flatMap_cons, List.length_append, List.length_append,
          htmlEscape]
        omega
      simp only [hfind, if_pos hend]
      exact boundary_append escapeChar (us ++ ch :: vs) zs
  · -- inside an entity, which is the last to begin before the limit
    change (htmlEscape ys).length < limit at hlow
    change limit < (htmlEscape ys).length + (escapeChar ch).length at hhigh
    obtain ⟨body, hch, hopen, hbody⟩ := (delimited_escapeChar ch).closed (by omega)
    have hamp : rfind ['&'] (htmlEscape (ys ++ ch :: zs)) limit = some (htmlEscape ys).length := by
      have hsplit : htmlEscape (ys ++ ch :: zs) =
          htmlEscape ys ++ '&' :: (body ++ ';' :: htmlEscape zs) := by
        rw [htmlEscape_append]
        simp [htmlEscape, hch]
      rw [hch, List.length_cons, List.length_append, List.length_singleton] at hhigh
      refine rfind_singleton_eq_some_iff.mpr ⟨hlow, ?_, fun j h1 h2 hj => ?_⟩
      · rw [hsplit, List.getElem?_append_right (le_refl _)]
        simp
      · have hj' : body[j - (htmlEscape ys).length - 1]? = some '&' := by
          rw [hsplit, List.getElem?_append_right h1.le, List.getElem?_cons, if_neg (by omega),
            List.getElem?_append_left (by omega)] at hj
          exact hj
        exact hopen (List.mem_of_getElem? hj')
    rw [hamp]
    dsimp only
    rw [findFrom_unit hch hbody]
    dsimp only
    rw [if_neg (by omega)]
    split_ifs with hpos
    · exact boundary_append escapeChar ys (ch :: zs)
    · have hnil : ys = [] := htmlEscape_eq_nil (List.length_eq_zero_iff.mp (Nat.eq_zero_of_not_pos hpos))
      subst hnil
      refine ⟨[ch], zs, rfl, ?_⟩
      have hone := (escapeChar_length ch).1
      simp
      omega

theorem safeCut_pos (hlimit : 0 < limit) (hs : s ≠ []) : 0 < safeCut s limit := by
  have hlen := List.length_pos_of_ne_nil hs
  unfold safeCut
  split_ifs
  · exact hlen
  · split
    · exact hlimit
    · split <;> split_ifs <;> omega

/-- A safe cut exceeds the limit only where that leaves no room for an entity. -/
theorem safeCut_le (text : List Char) (limit : ℕ) :
    safeCut (htmlEscape text) limit ≤ max limit 5 := by
  unfold safeCut
  split_ifs with hlen
  · exact hlen.trans (Nat.le_max_left limit 5)
  cases hamp : rfind ['&'] (htmlEscape text) limit with
  | none => exact Nat.le_max_left limit 5
  | some amp =>
    obtain ⟨hlt, hget, -⟩ := rfind_singleton_eq_some_iff.mp hamp
    obtain ⟨ys, ch, zs, body, rfl, rfl, hch, hbody⟩ :=
      exists_unit_of_open delimited_escapeChar (by decide) text amp hget
    change (htmlEscape ys).length < limit at hlt
    have hfive := (escapeChar_length ch).2
    dsimp only
    rw [show (ys.flatMap escapeChar).length = (htmlEscape ys).length from rfl,
      findFrom_unit hch hbody]
    dsimp only
    split_ifs <;> omega

/-- **The cut of one turn** stands between two units. -/
theorem nextCut_boundary (text : List Char) (limit : ℕ) :
    Boundary escapeChar text (nextCut (htmlEscape text) limit) := by
  unfold nextCut
  split_ifs
  · exact boundary_length escapeChar text
  · split
    · exact safeCut_boundary text _
    · exact safeCut_boundary text _

theorem separated_cut {s : List Char} {cut : ℕ}
    (h : (["\n\n", "\n", " "].findSome? fun sep =>
      (rfind sep.toList s limit).map (· + sep.toList.length)) = some cut) :
    0 < cut ∧ cut ≤ limit := by
  obtain ⟨sep, hsep, h⟩ := List.exists_of_findSome?_eq_some h
  obtain ⟨i, hi, rfl⟩ := Option.map_eq_some_iff.mp h
  have hpos : ∀ sep ∈ ["\n\n", "\n", " "], 0 < sep.toList.length := by decide
  have := hpos sep hsep
  exact ⟨by omega, rfind_add_length_le hi⟩

theorem nextCut_pos (hlimit : 0 < limit) (hs : s ≠ []) : 0 < nextCut s limit := by
  unfold nextCut
  split_ifs
  · exact List.length_pos_of_ne_nil hs
  · split
    · rename_i cut hcut
      exact safeCut_pos (separated_cut hcut).1 hs
    · exact safeCut_pos hlimit hs

theorem nextCut_le (text : List Char) (limit : ℕ) :
    nextCut (htmlEscape text) limit ≤ max limit 5 := by
  unfold nextCut
  split_ifs with hlen
  · exact hlen.trans (Nat.le_max_left limit 5)
  · split
    · rename_i cut hcut
      have hle := (separated_cut hcut).2
      have hsafe := safeCut_le text cut
      omega
    · exact safeCut_le text limit

/-! ## The loop -/

/-- **The loop** cuts the text: its pieces are the escapes of consecutive pieces of the text, each of
them within the limit. -/
theorem chunkLoop_spec (hlimit : 0 < limit) (h5 : 5 ≤ limit) (text : List Char) :
    ∃ pieces : List (List Char), chunkLoop limit hlimit (htmlEscape text) = pieces.map htmlEscape ∧
      pieces.flatten = text ∧ ∀ piece ∈ pieces, piece ≠ [] ∧ (htmlEscape piece).length ≤ limit := by
  induction hn : text.length using Nat.strong_induction_on generalizing text with
  | _ n ih =>
    rw [chunkLoop]
    split_ifs with hs
    · obtain rfl := htmlEscape_eq_nil hs
      exact ⟨[], rfl, rfl, nofun⟩
    · have hpos := nextCut_pos hlimit hs
      have hle := nextCut_le text limit
      rw [show chunkCut (htmlEscape text) limit = nextCut (htmlEscape text) limit from
        if_neg hpos.ne']
      obtain ⟨ys, zs, rfl, hcut⟩ := nextCut_boundary text limit
      change _ = (htmlEscape ys).length at hcut
      rw [hcut] at hpos hle ⊢
      have hys : ys ≠ [] := by
        rintro rfl
        exact lt_irrefl 0 hpos
      have hlt := List.length_pos_of_ne_nil hys
      obtain ⟨pieces, hpieces, hflat, hall⟩ :=
        ih zs.length (by rw [← hn, List.length_append]; omega) zs rfl
      refine ⟨ys :: pieces, ?_, ?_, ?_⟩
      · rw [htmlEscape_append, List.take_left, List.drop_left, hpieces, List.map_cons]
      · rw [List.flatten_cons, hflat]
      · exact List.forall_mem_cons.mpr ⟨⟨hys, by omega⟩, hall⟩

/-! ## The count, the prefixes and the suffix -/

/-- The raw characters of an escaped prefix of the text are counted exactly. -/
theorem rawCount_append (ys zs : List Char) :
    ∀ total, rawCountForEscaped (total + (htmlEscape ys).length) total (ys ++ zs) = ys.length := by
  induction ys with
  | nil =>
    intro total
    cases zs with
    | nil => rfl
    | cons ch zs =>
      have hone := (escapeChar_length ch).1
      have hlt : total < total + (htmlEscape [ch]).length := by
        rw [htmlEscape, List.flatMap_singleton]
        omega
      exact if_pos hlt
  | cons ch ys ih =>
    intro total
    have hlen : (htmlEscape (ch :: ys)).length = (htmlEscape [ch]).length + (htmlEscape ys).length := by
      rw [← List.singleton_append, htmlEscape_append, List.length_append]
    rw [List.cons_append, rawCountForEscaped, if_neg (by omega), hlen, ← Nat.add_assoc, ih,
      List.length_cons]

theorem insertCommas_length (digits : List Char) :
    (insertCommas digits).length = digits.length + (digits.length - 1) / 3 := by
  fun_induction insertCommas digits with
  | case1 a b c d rest ih =>
    simp only [List.length_cons] at ih ⊢
    omega
  | case2 digits hshort =>
    have hlen : digits.length ≤ 3 := by
      by_contra hlong
      match digits, hlong with
      | a :: b :: c :: d :: rest, _ => exact hshort a b c d rest rfl
      | [], h | [_], h | [_, _], h | [_, _, _], h => exact h (by simp)
    omega

theorem withCommas_length (n : ℕ) :
    (withCommas n).length = (Nat.toDigits 10 n).length + ((Nat.toDigits 10 n).length - 1) / 3 := by
  rw [withCommas, List.length_reverse, insertCommas_length, List.length_reverse]

theorem toDigits_length_mono (h : n ≤ m) :
    (Nat.toDigits 10 n).length ≤ (Nat.toDigits 10 m).length := by
  rw [Nat.length_toDigits_le_iff (by decide) Nat.length_toDigits_pos]
  exact h.trans_lt ((Nat.length_toDigits_le_iff (by decide) Nat.length_toDigits_pos).mp (le_refl _))

theorem truncationSuffix_length (n : ℕ) :
    (truncationSuffix n).length = (withCommas n).length + 21 := by
  rw [truncationSuffix, List.length_append, List.length_append]
  simp
  omega

/-- The suffix of what is dropped is no longer than the room that is reserved for it. -/
theorem truncationSuffix_mono (h : n ≤ m) :
    (truncationSuffix n).length ≤ (truncationSuffix m).length := by
  have hdigits := toDigits_length_mono h
  rw [truncationSuffix_length, truncationSuffix_length, withCommas_length, withCommas_length]
  omega

theorem truncationSuffix_le {d : ℕ} (hd : 0 < d) (h : n < 10 ^ d) :
    (truncationSuffix n).length ≤ d + (d - 1) / 3 + 21 := by
  have hdigits := (Nat.length_toDigits_le_iff (by decide) hd).mpr h
  rw [truncationSuffix_length, withCommas_length]
  omega

theorem marker_length (hn : n ≤ maxParts) (hm : m ≤ maxParts) : (marker n m).length = 6 := by
  unfold maxParts at hn hm
  rw [marker, Nat.toDigits_of_lt_base (by omega), Nat.toDigits_of_lt_base (by omega)]
  simp

theorem onLast_append_singleton {α : Type*} (f : α → α) (init : List α) (x : α) :
    onLast f (init ++ [x]) = init ++ [f x] := by
  induction init with
  | nil => rfl
  | cons y init ih =>
    cases init with
    | nil => rfl
    | cons z init =>
      show y :: onLast f (z :: init ++ [x]) = _
      rw [ih]
      rfl

/-! ## The parts -/

/-- The parts that are sent: the contents with their prefixes, the last one with the suffix. -/
def decorate (total dropped : ℕ) (contents : List (List Char)) : List (List Char) :=
  let parts := if total = 1 then contents else number total contents
  if dropped = 0 then parts else onLast (· ++ truncationSuffix dropped) parts

/-- **Nothing is lost or torn.** The contents of the parts are the escapes of consecutive pieces of
the text, so that no entity is split, and together they are the escape of the text without the
characters that the suffix counts. -/
structure Floats (text : List Char) (parts : List (List Char)) (total dropped : ℕ) : Prop where
  count : parts.length = total ∧ 1 ≤ total ∧ total ≤ maxParts
  fits : ∀ part ∈ parts, part.length ≤ chunkLimit
  pieces : ∃ pieces : List (List Char), parts = decorate total dropped (pieces.map htmlEscape) ∧
    (pieces.map htmlEscape).flatten = htmlEscape (text.take (text.length - dropped)) ∧
    (dropped = 0 ↔ pieces.flatten = text)

theorem number_length (total : ℕ) (parts : List (List Char)) :
    (number total parts).length = parts.length := by
  simp [number]

/-- A numbered part is one of the parts behind its prefix. -/
theorem mem_number {total : ℕ} {parts : List (List Char)} (hparts : parts.length ≤ maxParts)
    (htotal : total ≤ maxParts) {part : List Char} (h : part ∈ number total parts) :
    ∃ content ∈ parts, part.length = content.length + 6 := by
  obtain ⟨⟨content, i⟩, hmem, rfl⟩ := List.mem_map.mp h
  obtain ⟨h1, h2, h3⟩ := List.mem_zipIdx hmem
  refine ⟨content, List.fst_mem_of_mem_zipIdx hmem, ?_⟩
  rw [List.length_append, marker_length (by omega) htotal]
  omega

/-- What is kept of the last part is a piece of the text, too. -/
theorem cutLast_spec (lastLimit : ℕ) (hlimit : 0 < lastLimit) (piece : List Char) :
    ∃ kept rest, piece = kept ++ rest ∧ cutLast lastLimit (htmlEscape piece) = htmlEscape kept ∧
      (htmlEscape kept).length ≤ max lastLimit 5 := by
  unfold cutLast
  split_ifs with hlen
  · have hne : htmlEscape piece ≠ [] := by
      rintro hnil
      rw [hnil] at hlen
      exact Nat.not_lt_zero _ hlen
    have hpos := safeCut_pos hlimit hne
    have hle := safeCut_le piece lastLimit
    obtain ⟨kept, rest, rfl, hcut⟩ := safeCut_boundary piece lastLimit
    change _ = (htmlEscape kept).length at hcut
    refine ⟨kept, rest, rfl, ?_, by omega⟩
    dsimp only
    rw [if_neg hpos.ne', hcut, htmlEscape_append, List.take_left]
  · exact ⟨piece, [], (List.append_nil piece).symm, rfl, by omega⟩

/-- One part, without a prefix. -/
theorem floats_single (h : (htmlEscape text).length ≤ chunkLimit) :
    Floats text [htmlEscape text] 1 0 where
  count := ⟨rfl, le_refl 1, by decide⟩
  fits := List.forall_mem_singleton.mpr h
  pieces := ⟨[text], rfl, by simp, by simp⟩

/-- The room for a part beside its prefix. -/
theorem markerOnlyLimit_eq : chunkLimit - markerLen maxParts = 3994 := by
  rw [markerLen, marker_length (le_refl _) (le_refl _)]
  rfl

/-- All the pieces, numbered. -/
theorem floats_all {pieces : List (List Char)} (hflat : pieces.flatten = text)
    (hfit : ∀ piece ∈ pieces, (htmlEscape piece).length ≤ 3994) (htwo : 2 ≤ pieces.length)
    (hmax : pieces.length ≤ maxParts) :
    Floats text (number pieces.length (pieces.map htmlEscape)) pieces.length 0 where
  count := ⟨by rw [number_length, List.length_map], by omega, hmax⟩
  fits part hpart := by
    obtain ⟨content, hcontent, hlen⟩ := mem_number (by rwa [List.length_map]) hmax hpart
    obtain ⟨piece, hpiece, rfl⟩ := List.mem_map.mp hcontent
    have hle := hfit piece hpiece
    rw [chunkLimit]
    omega
  pieces := by
    refine ⟨pieces, ?_, ?_, by simp [hflat]⟩
    · rw [decorate, if_pos rfl, if_neg (by omega)]
    · rw [← htmlEscape_flatten, hflat, Nat.sub_zero, List.take_length]

/-- The first pieces, the last of them cut, and the suffix that counts the rest. -/
theorem floats_cut {front : List (List Char)} {kept rest : List Char}
    (htext : text = front.flatten ++ kept ++ rest) (hrest : rest ≠ [])
    (hfront : front.length + 1 = maxParts)
    (hfit : ∀ piece ∈ front, (htmlEscape piece).length ≤ 3994)
    (hlast : (htmlEscape kept).length + (truncationSuffix rest.length).length ≤ 3994) :
    Floats text (onLast (· ++ truncationSuffix rest.length)
      (number maxParts ((front ++ [kept]).map htmlEscape))) maxParts rest.length := by
  have hpos := List.length_pos_of_ne_nil hrest
  have hnumber : number maxParts ((front ++ [kept]).map htmlEscape) =
      number maxParts (front.map htmlEscape) ++ [marker maxParts maxParts ++ htmlEscape kept] := by
    rw [List.map_append, number, List.zipIdx_append, List.map_append, List.length_map,
      Nat.add_comm 1, hfront]
    rfl
  have htake : text.take (text.length - rest.length) = front.flatten ++ kept := by
    rw [htext, List.length_append, Nat.add_sub_cancel, List.take_left]
  refine ⟨⟨?_, by decide, le_refl _⟩, ?_, front ++ [kept], ?_, ?_, ?_⟩
  · rw [hnumber, onLast_append_singleton, List.length_append, number_length, List.length_map]
    exact hfront
  · rw [hnumber, onLast_append_singleton, List.forall_mem_append, List.forall_mem_singleton]
    constructor
    · intro part hpart
      obtain ⟨content, hcontent, hlen⟩ :=
        mem_number (by rw [List.length_map]; omega) (le_refl _) hpart
      obtain ⟨piece, hpiece, rfl⟩ := List.mem_map.mp hcontent
      have hle := hfit piece hpiece
      rw [chunkLimit]
      omega
    · rw [List.length_append, List.length_append, marker_length (le_refl _) (le_refl _), chunkLimit]
      omega
  · rw [decorate, if_neg hpos.ne', if_neg (by decide)]
  · rw [← htmlEscape_flatten, htake, List.flatten_append, List.flatten_singleton]
  · rw [List.flatten_append, List.flatten_singleton]
    refine ⟨fun h => absurd h hpos.ne', fun h => ?_⟩
    rw [htext] at h
    exact absurd (List.self_eq_append_right.mp h) hrest

/-- The head of the pieces, once its last one is cut. -/
theorem head_eq {front later : List (List Char)} {last kept : List Char} {lastLimit : ℕ}
    (hfront : front.length + 1 = maxParts)
    (hcut : cutLast lastLimit (htmlEscape last) = htmlEscape kept) :
    onLast (cutLast lastLimit) (((front ++ last :: later).map htmlEscape).take maxParts) =
      (front ++ [kept]).map htmlEscape := by
  have htake : (front ++ last :: later).take maxParts = front ++ [last] := by
    rw [← hfront, List.append_cons, List.take_left']
    simp
  rw [← List.map_take, htake, List.map_append, List.map_singleton, onLast_append_singleton, hcut,
    List.map_append, List.map_singleton]

/-- What the pieces that are sent leave of the text. -/
theorem dropped_eq {pieces : List (List Char)} {rest : List Char}
    (htext : text = pieces.flatten ++ rest) :
    text.length - rawCountForEscaped ((pieces.map htmlEscape).map (·.length)).sum 0 text =
      rest.length := by
  have hsum : ((pieces.map htmlEscape).map (·.length)).sum =
      0 + (htmlEscape pieces.flatten).length := by
    rw [← List.length_flatten, ← htmlEscape_flatten, Nat.zero_add]
  have hcount := rawCount_append pieces.flatten rest 0
  have hlength := congrArg List.length htext
  rw [List.length_append] at hlength
  rw [← htext] at hcount
  rw [hsum, hcount]
  omega

/-- Over the ceiling the last part is cut once more, so that the suffix fits. -/
theorem floats_ceiling {pieces : List (List Char)} (hflat : pieces.flatten = text)
    (hall : ∀ piece ∈ pieces, piece ≠ [] ∧ (htmlEscape piece).length ≤ 3994)
    (hmax : maxParts < pieces.length) (hroom : (truncationSuffix text.length).length ≤ 3989)
    {head : List (List Char)} {dropped : ℕ}
    (hhead : head = onLast (cutLast (max 1 (3994 - (truncationSuffix text.length).length)))
      ((pieces.map htmlEscape).take maxParts))
    (hdropped : dropped = text.length - rawCountForEscaped (head.map (·.length)).sum 0 text) :
    Floats text (onLast (· ++ truncationSuffix dropped) (number maxParts head)) maxParts dropped := by
  change 8 < pieces.length at hmax
  obtain ⟨front, last, later, rfl, hfront⟩ :
      ∃ front last later, pieces = front ++ last :: later ∧ front.length = 7 := by
    refine ⟨pieces.take 7, pieces.get ⟨7, by omega⟩, pieces.drop 8, by simp, ?_⟩
    rw [List.length_take]
    omega
  obtain ⟨kept, rest, rfl, hcut, hkept⟩ := cutLast_spec
    (max 1 (3994 - (truncationSuffix text.length).length)) (by omega) last
  have htext : text = (front ++ [kept]).flatten ++ (rest ++ later.flatten) := by
    rw [← hflat]
    simp
  have hlength := congrArg List.length htext
  rw [List.length_append] at hlength
  have hrest : rest ++ later.flatten ≠ [] := by
    cases later with
    | nil =>
      rw [List.length_append, hfront] at hmax
      exact absurd hmax (lt_irrefl 8)
    | cons piece later => simp [(hall piece (by simp)).1]
  have hsuffix : (truncationSuffix (rest ++ later.flatten).length).length ≤
      (truncationSuffix text.length).length := truncationSuffix_mono (by omega)
  rw [head_eq (by rw [hfront]; rfl) hcut] at hhead
  rw [hhead, dropped_eq htext] at hdropped
  rw [hdropped, hhead]
  refine floats_cut ?_ hrest (by rw [hfront]; rfl) (fun piece h => (hall piece (by simp [h])).2) ?_
  · rw [htext, List.flatten_append, List.flatten_singleton]
  · omega

/-- A text that needs more than one part is cut more than once. -/
theorem two_le_pieces {pieces : List (List Char)} (hflat : pieces.flatten = text)
    (hall : ∀ piece ∈ pieces, piece ≠ [] ∧ (htmlEscape piece).length ≤ 3994)
    (hlong : ¬ (htmlEscape text).length ≤ chunkLimit) : 2 ≤ pieces.length := by
  by_contra hone
  apply hlong
  match pieces, hone with
  | [], _ =>
    rw [← hflat]
    exact Nat.zero_le chunkLimit
  | [piece], _ =>
    rw [← hflat, List.flatten_singleton]
    exact (hall piece (List.mem_singleton_self _)).2.trans (by decide)
  | _ :: _ :: _, h => exact absurd h (by simp)

/-- **What is floated.** For every text, the parts carry the whole text, or all of it but the
characters that the suffix of the last part counts. -/
theorem buildParts_floats (text : List Char) (hlen : text.length < 10 ^ 1000) :
    ∃ parts total dropped, buildParts text (htmlEscape text) = .ok (parts, total, dropped) ∧
      Floats text parts total dropped := by
  have hroom : (truncationSuffix text.length).length ≤ 3989 := by
    generalize hd : 1000 = d at hlen
    have := truncationSuffix_le (by omega) hlen
    omega
  clear hlen
  unfold buildParts
  split_ifs with hsingle
  · exact ⟨_, _, _, rfl, floats_single hsingle⟩
  obtain ⟨pieces, hpieces, hflat, hall⟩ := chunkLoop_spec (by decide) (by decide : 5 ≤ 3994) text
  have hbase : chunkEscaped (htmlEscape text) 3994 = .ok (pieces.map htmlEscape) := by
    rw [← hpieces]
    exact dif_pos (by decide)
  rw [markerOnlyLimit_eq]
  dsimp only
  rw [hbase]
  show ∃ parts total dropped, (if (pieces.map htmlEscape).length ≤ maxParts then _ else _) = _ ∧ _
  rw [List.length_map]
  split_ifs with hmax
  · have htwo := two_le_pieces hflat hall hsingle
    exact ⟨_, _, _, rfl, floats_all hflat (fun piece h => (hall piece h).2) htwo hmax⟩
  · exact ⟨_, _, _, rfl, floats_ceiling hflat hall (Nat.lt_of_not_le hmax) hroom rfl rfl⟩

theorem buildParts_floats_long : ∃ parts total dropped,
    buildParts (List.replicate 80000 'a') (htmlEscape (List.replicate 80000 'a')) =
      .ok (parts, total, dropped) ∧ Floats (List.replicate 80000 'a') parts total dropped := by
  apply buildParts_floats (List.replicate 80000 'a')
  generalize hd : 1000 = d
  rw [List.length_replicate]
  exact (by decide : 80000 < 10 ^ 5).trans_le (Nat.pow_le_pow_right (by decide) (by omega))

end HermesMesh.Float
