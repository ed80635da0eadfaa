import Itou.Lib.JsonTexts
import Itou.Sessions.Lemmas.RoundTrip

/-!
# Main results on the values of a session

What a session keeps is read back as it was, and two different values never have the same text.
-/

namespace Itou.Sessions

open Itou.Lib

universe u v

variable {S : Tag → Type u} {τ : Type v} {lib : Library S τ} {same : (type : Tag) → S type → S type → Prop}

/-- A tree is read back from the session as it was, and two different trees are never written the same way. -/
theorem loads_dumps (hlib : lib.ReadsBack same) :
    (∀ x : Value S, x.IsTree → ∃ data y, lib.dumps x = some data ∧ lib.loads data = some y ∧ y.Same same x) ∧
      ∀ x y : Value S, x.IsTree → y.IsTree → ¬ x.Same same y → lib.dumps x ≠ lib.dumps y := by
  have hround : ∀ x : Value S, x.IsTree → ∃ data y, lib.dumps x = some data ∧ lib.loads data = some y ∧
      y.Same same x := by
    intro x hx
    obtain ⟨j, y, hencode, hdecode, hsame⟩ := decode_encode hlib x hx
    refine ⟨lib.render j, y, by rw [Library.dumps, hencode]; rfl, ?_, hsame⟩
    rw [Library.loads, hlib.parse hx hencode, Option.bind_some, hdecode]
  refine ⟨hround, fun x y hx hy hne heq => ?_⟩
  obtain ⟨data, z, hdumps, hloads, hz⟩ := hround x hx
  obtain ⟨data', z', hdumps', hloads', hz'⟩ := hround y hy
  rw [hdumps, hdumps', Option.some.injEq] at heq
  subst heq
  rw [hloads, Option.some.injEq] at hloads'
  subst hloads'
  exact hne (Value.Same.unique hlib.equivalence z hz hz')

/-- The values of the tagged types are their texts, and the JSON documents are those of the standard library. -/
def texts : Library (fun _ => String) (List Char) where
  text _ x := x
  build
    | type, .str s => some (.scalar type s)
    | _, _ => none
  render := JsonValue.dumps
  parse := JsonValue.loads

theorem texts_readsBack : texts.ReadsBack fun _ => Eq where
  equivalence _ := eq_equivalence
  build _ x := ⟨x, rfl, rfl⟩
  parse _ _ := JsonValue.loads_of_dumps _

/-- A start date in the data of a wizard, and two durations that differ by their sign. -/
theorem loads_dumps_wizard :
    (∃ data y, texts.dumps (.dict [("step", .dict [("start", .scalar .datetime "2026-06-01T10:00:00+02:00")])]) =
        some data ∧ texts.loads data = some y ∧
          y.Same (fun _ => Eq) (.dict [("step", .dict [("start", .scalar .datetime "2026-06-01T10:00:00+02:00")])])) ∧
      texts.dumps (.list [.scalar .timedelta "P1DT00H00M00S"]) ≠
        texts.dumps (.list [.scalar .timedelta "-P1DT00H00M00S"]) := by
  have h := loads_dumps texts_readsBack
  refine ⟨h.1 _ ?_, h.2 _ _ ?_ ?_ ?_⟩
  · simp [Value.IsTree, AreItems]
  · simp [Value.IsTree, AreTrees]
  · simp [Value.IsTree, AreTrees]
  · simp [Value.Same, SameList]

end Itou.Sessions
