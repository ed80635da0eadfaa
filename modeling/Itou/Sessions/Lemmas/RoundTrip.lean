import Mathlib.Data.List.Nodup
import Itou.Sessions.Json

/-!
# Values survive the session

By induction on the tree: what is decoded from its encoding is the same tree.
-/

namespace Itou.Sessions

universe u v

variable {S : Tag → Type u} {τ : Type v} {lib : Library S τ} {same : (type : Tag) → S type → S type → Prop}

/-! ## Branches -/

/-- The branch of its own type is the first one that takes a value. -/
theorem find?_isInstance (type : Tag) : Tag.branches.find? type.isInstance = some type := by
  cases type <;> rfl

theorem find?_isText (type : Tag) :
    Tag.branches.find? (fun branch => Library.isText branch.name (.str type.name : Value S)) = some type := by
  cases type <;> simp [Tag.branches, Library.isText, Tag.name]

theorem tagged_eq (type : Tag) (x : S type) : lib.tagged type x =
    some (.object [("__type__", .string type.name), ("value", .string (lib.text type x))]) := by
  rw [Library.tagged, find?_isInstance]
  rfl

/-! ## Dictionaries -/

theorem any_key_iff {obj : List (String × Value S)} {key : String} :
    (obj.any fun item => decide (item.1 = key)) = true ↔ key ∈ obj.map Prod.fst := by
  simp [List.any_eq_true, List.mem_map]

/-- Items under different keys make a dictionary of the same items. -/
theorem toDict_eq {items : List (String × Value S)} (h : (items.map Prod.fst).Nodup) :
    Library.toDict items = items := by
  have hfold : ∀ obj : List (String × Value S), ((obj ++ items).map Prod.fst).Nodup →
      items.foldl (fun obj item => Library.setItem obj item.1 item.2) obj = obj ++ items := by
    induction items with
    | nil => exact fun obj _ => (List.append_nil obj).symm
    | cons item items ih =>
        intro obj hnodup
        have hset : Library.setItem obj item.1 item.2 = obj ++ [item] := by
          refine if_neg fun hany => ?_
          rw [List.map_append, List.nodup_append] at hnodup
          exact hnodup.2.2 _ (any_key_iff.mp hany) _ List.mem_cons_self rfl
        rw [List.foldl_cons, hset, ih (List.nodup_cons.mp h).2, List.append_assoc, List.singleton_append]
        rwa [List.append_assoc, List.singleton_append]
  exact hfold [] h

theorem SameItems.keys : {items items' : List (String × Value S)} → SameItems same items items' →
    items.map Prod.fst = items'.map Prod.fst
  | [], [], _ => rfl
  | _ :: _, _ :: _, h => by
      simp only [SameItems] at h
      rw [List.map_cons, List.map_cons, h.1, h.2.2.keys]

/-- The hook leaves a dictionary without the key of the tag. -/
theorem decodeObject_of_notMem {obj : List (String × Value S)} (h : "__type__" ∉ obj.map Prod.fst) :
    lib.decodeObject obj = some (.dict obj) := by
  have hlookup : obj.lookup "__type__" = none := by
    rw [List.lookup_eq_none_iff]
    intro item hitem
    simp only [bne_iff_ne, ne_eq]
    rintro heq
    exact h (List.mem_map.mpr ⟨item, hitem, heq.symm⟩)
  rw [Library.decodeObject, hlookup]

/-- The hook builds a value of the type of the tag. -/
theorem decodeObject_tagged (type : Tag) (text : String) :
    lib.decodeObject [("__type__", .str type.name), ("value", .str text)] = lib.build type (.str text) := by
  have htype : List.lookup "__type__" [("__type__", (.str type.name : Value S)), ("value", .str text)] =
      some (.str type.name) := rfl
  have hvalue : List.lookup "value" [("__type__", (.str type.name : Value S)), ("value", .str text)] =
      some (.str text) := rfl
  rw [Library.decodeObject, htype]
  simp only [find?_isText, hvalue, Option.bind_some]

/-! ## Trees -/

mutual
theorem decode_encode (hlib : lib.ReadsBack same) : (x : Value S) → x.IsTree →
    ∃ j y, lib.encode x = some j ∧ lib.decode j = some y ∧ y.Same same x
  | .none, _ => ⟨.null, .none, rfl, rfl, trivial⟩
  | .bool b, _ => ⟨.bool b, .bool b, rfl, rfl, rfl⟩
  | .int n, _ => ⟨.number n, .int n, rfl, rfl, rfl⟩
  | .str s, _ => ⟨.string s, .str s, rfl, rfl, rfl⟩
  | .scalar type x, _ => by
      obtain ⟨y, hy, hsame⟩ := hlib.build type x
      refine ⟨_, .scalar type y, tagged_eq type x, ?_, rfl, hsame⟩
      have hitems : lib.decodeItems [("__type__", .string type.name), ("value", .string (lib.text type x))] =
          some [("__type__", .str type.name), ("value", .str (lib.text type x))] := rfl
      rw [Library.decode, hitems, Option.bind_some, toDict_eq (by simp), decodeObject_tagged, hy]
  | .list items, h => by
      obtain ⟨js, ys, hencode, hdecode, hsame⟩ := decodeList_encodeList hlib items h
      exact ⟨.array js, .list ys, by rw [Library.encode, hencode]; rfl, by rw [Library.decode, hdecode]; rfl, hsame⟩
  | .dict items, h => by
      obtain ⟨js, ys, hencode, hdecode, hsame⟩ := decodeItems_encodeItems hlib items h.2.2
      refine ⟨.object js, .dict ys, by rw [Library.encode, hencode]; rfl, ?_, hsame⟩
      have hkeys := SameItems.keys hsame
      rw [Library.decode, hdecode, Option.bind_some, toDict_eq (hkeys ▸ h.1), decodeObject_of_notMem (hkeys ▸ h.2.1)]

theorem decodeList_encodeList (hlib : lib.ReadsBack same) : (xs : List (Value S)) → AreTrees xs →
    ∃ js ys, lib.encodeList xs = some js ∧ lib.decodeList js = some ys ∧ SameList same ys xs
  | [], _ => ⟨[], [], rfl, rfl, trivial⟩
  | x :: xs, h => by
      obtain ⟨j, y, hencode, hdecode, hsame⟩ := decode_encode hlib x h.1
      obtain ⟨js, ys, hencodes, hdecodes, hsames⟩ := decodeList_encodeList hlib xs h.2
      refine ⟨j :: js, y :: ys, ?_, ?_, hsame, hsames⟩
      · rw [Library.encodeList, hencode, hencodes]
        rfl
      · rw [Library.decodeList, hdecode, hdecodes]
        rfl

theorem decodeItems_encodeItems (hlib : lib.ReadsBack same) : (items : List (String × Value S)) → AreItems items →
    ∃ js ys, lib.encodeItems items = some js ∧ lib.decodeItems js = some ys ∧ SameItems same ys items
  | [], _ => ⟨[], [], rfl, rfl, trivial⟩
  | (key, x) :: items, h => by
      obtain ⟨j, y, hencode, hdecode, hsame⟩ := decode_encode hlib x h.1
      obtain ⟨js, ys, hencodes, hdecodes, hsames⟩ := decodeItems_encodeItems hlib items h.2
      refine ⟨(key, j) :: js, (key, y) :: ys, ?_, ?_, rfl, hsame, hsames⟩
      · rw [Library.encodeItems, hencode, hencodes]
        rfl
      · rw [Library.decodeItems, hdecode, hdecodes]
        rfl
end

/-! ## One tree for one encoding -/

mutual
/-- Two trees that are the same as a third one are the same. -/
theorem Value.Same.unique (h : ∀ type, Equivalence (same type)) : (z : Value S) → {x y : Value S} →
    z.Same same x → z.Same same y → x.Same same y
  | .none, .none, .none, _, _ => trivial
  | .bool _, .bool _, .bool _, hx, hy => hx.symm.trans hy
  | .int _, .int _, .int _, hx, hy => hx.symm.trans hy
  | .str _, .str _, .str _, hx, hy => hx.symm.trans hy
  | .scalar type z, .scalar _ x, .scalar _ y, hx, hy => by
      obtain ⟨rfl, hx⟩ := hx
      obtain ⟨rfl, hy⟩ := hy
      exact ⟨rfl, (h type).trans ((h type).symm hx) hy⟩
  | .list zs, .list _, .list _, hx, hy => SameList.unique h zs hx hy
  | .dict zs, .dict _, .dict _, hx, hy => SameItems.unique h zs hx hy
termination_by structural z => z

theorem SameList.unique (h : ∀ type, Equivalence (same type)) : (zs : List (Value S)) → {xs ys : List (Value S)} →
    SameList same zs xs → SameList same zs ys → SameList same xs ys
  | [], [], [], _, _ => trivial
  | z :: zs, _ :: _, _ :: _, hx, hy => ⟨Value.Same.unique h z hx.1 hy.1, SameList.unique h zs hx.2 hy.2⟩
termination_by structural zs => zs

theorem SameItems.unique (h : ∀ type, Equivalence (same type)) : (zs : List (String × Value S)) →
    {xs ys : List (String × Value S)} → SameItems same zs xs → SameItems same zs ys → SameItems same xs ys
  | [], [], [], _, _ => trivial
  | (_, z) :: zs, _ :: _, _ :: _, hx, hy =>
      ⟨hx.1.symm.trans hy.1, Value.Same.unique h z hx.2.1 hy.2.1, SameItems.unique h zs hx.2.2 hy.2.2⟩
termination_by structural zs => zs
end

end Itou.Sessions
