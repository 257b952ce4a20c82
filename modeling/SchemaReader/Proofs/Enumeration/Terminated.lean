import SchemaReader.Proofs.Enumeration.RoundTrip

/-!
# What follows an enumeration

An enumeration ends at the first terminator behind its marker.  The marker that is
taken is the first one with a colon, and text at the end of a comment neither
completes an earlier marker nor moves the place where the items end.
-/

namespace SchemaReader.Enumeration

open SchemaReader.Number SchemaReader.Text
open SchemaReader.Schema (EnumEntry)

theorem afterMarkerHere?_append {text items : List Char} (h : afterMarkerHere? text = some items)
    (rest : List Char) : afterMarkerHere? (text ++ rest) = some (items ++ rest) := by
  obtain ⟨blanks, colon, hblanks, hcolon, rfl⟩ := afterMarkerHere?_eq_some_iff.1 h
  exact afterMarkerHere?_eq_some_iff.2 ⟨blanks, colon, hblanks, hcolon, by simp⟩

theorem exists_marker_of_afterMarker? {text items : List Char}
    (h : afterMarker? text = some items) : ∃ lead rest, text = lead ++ marker ++ rest := by
  induction text with
  | nil => cases h
  | cons c text ih =>
      rw [afterMarker?] at h
      split at h
      · rename_i hhere
        obtain ⟨blanks, colon, -, -, htext⟩ := afterMarkerHere?_eq_some_iff.1 hhere
        exact ⟨[], blanks ++ colon :: _, by rw [htext, List.nil_append, List.append_assoc]⟩
      · obtain ⟨lead, rest, rfl⟩ := ih h
        exact ⟨c :: lead, rest, by simp⟩

theorem afterMarkerHere?_append_eq_none {c : Char} {text items : List Char}
    (hhere : afterMarkerHere? (c :: text) = none) (hlater : afterMarker? text = some items)
    (rest : List Char) : afterMarkerHere? (c :: text ++ rest) = none := by
  obtain ⟨lead, behind, rfl⟩ := exists_marker_of_afterMarker? hlater
  have hlead : afterMarkerHere? (c :: lead) = none := by
    cases hfound : afterMarkerHere? (c :: lead) with
    | none => rfl
    | some found =>
        have hwhole := afterMarkerHere?_append hfound (marker ++ behind)
        simp only [List.cons_append, List.append_assoc] at hhere hwhole
        rw [hhere] at hwhole
        cases hwhole
  have hnone := afterMarkerHere?_append_marker (behind ++ rest) (List.cons_ne_nil c lead) hlead
  simpa using hnone

theorem afterMarker?_append {text items : List Char} (h : afterMarker? text = some items)
    (rest : List Char) : afterMarker? (text ++ rest) = some (items ++ rest) := by
  induction text with
  | nil => cases h
  | cons c text ih =>
      rw [afterMarker?] at h
      split at h
      · rename_i hhere
        cases h
        exact afterMarker?_of_here (afterMarkerHere?_append hhere rest)
      · rename_i hhere
        have hnone := afterMarkerHere?_append_eq_none hhere h rest
        rw [List.cons_append] at hnone ⊢
        rw [afterMarker?, hnone]
        exact ih h

theorem takeWhile_append_cons {p : Char → Bool} {t : Char} (ht : p t = false)
    (items rest : List Char) : (items ++ t :: rest).takeWhile p = items.takeWhile p := by
  induction items with
  | nil => simp [ht]
  | cons c items ih => simp only [List.cons_append, List.takeWhile_cons, ih]

/-- Whatever stands behind a terminator, be it another enumeration, the comment keeps its marker
and its entries, or fails as it does without it. -/
theorem decode_append_terminator {comment : List Char} (h : hasMarker comment) {t : Char}
    (ht : t ∈ terminators) (rest : List Char) :
    hasMarker (comment ++ t :: rest) ∧ decode (comment ++ t :: rest) = decode comment := by
  obtain ⟨items, hitems⟩ := Option.isSome_iff_exists.1 h
  have happend := afterMarker?_append hitems (t :: rest)
  have hend : (!terminators.contains t) = false := by simpa using ht
  have hcut := takeWhile_append_cons (p := fun c => !terminators.contains c) hend items rest
  refine ⟨Option.isSome_of_eq_some happend, ?_⟩
  simp only [decode, happend, hitems, hcut]

/-- The line break that ends the items stands between a marker inside a label and a colon. -/
theorem decode_append_terminator_marker_cut_off :
    decode "【枚举】x【枚举】 ：0-a，1-b【枚举】\n：2-c。【枚举】：9-z".toList =
      .ok (some [⟨0, "a"⟩, ⟨1, "b【枚举】"⟩]) := by
  have hmarker : hasMarker "【枚举】x【枚举】 ：0-a，1-b【枚举】".toList := by decide
  have hread : decode "【枚举】x【枚举】 ：0-a，1-b【枚举】".toList =
      .ok (some [⟨0, "a"⟩, ⟨1, "b【枚举】"⟩]) := by decide
  have hend : '\n' ∈ terminators := by decide
  have hsplit : "【枚举】x【枚举】 ：0-a，1-b【枚举】\n：2-c。【枚举】：9-z".toList =
      "【枚举】x【枚举】 ：0-a，1-b【枚举】".toList ++ '\n' :: "：2-c。【枚举】：9-z".toList := by decide
  rw [hsplit, (decode_append_terminator hmarker hend _).2, hread]

end SchemaReader.Enumeration
