import Itou.Addresses.Format

/-!
# What `compute_hexa_address` keeps

The number and the lane of an answer are each kept exactly when they are regular.
-/

namespace Itou.Addresses

open Itou.Lib

namespace Environment

variable {env : Environment}

/-! ## The number -/

theorem strip_untilLineEnd {l extension : HexaText} (h : untilLineEnd l = some extension) : strip l = strip extension := by
  rw [untilLineEnd] at h
  split at h
  · cases h
    rfl
  · split at h
    · rename_i hend
      cases h
      obtain ⟨l, rfl⟩ := List.getLast?_eq_some_iff.mp hend.1
      rw [List.dropLast_concat]
      exact strip_concat rfl
    · cases h

theorem laneNumber_append {l number extension : HexaText} (h : laneNumber l = some (number, extension)) :
    ∃ text, l = number ++ text ∧ strip text = strip extension := by
  simp only [laneNumber] at h
  split at h
  · cases h
  · obtain ⟨rest, hrest, hfound⟩ := Option.map_eq_some_iff.mp h
    cases hfound
    have hnumber : (l.takeWhile isLaneDigit).take 5 <+: l := (List.take_prefix 5 _).trans (List.takeWhile_prefix _)
    exact ⟨_, (List.prefix_iff_eq_append.mp hnumber).symm, strip_untilLineEnd hrest⟩

/-- A text has the same words as its first character exactly when it is this character. -/
theorem upper_strip_cons_iff (c : Char) (l : HexaText) :
    upper env.casing.toCaseMapping (strip (c :: l)) = strip (upper env.casing.toCaseMapping [c]) ↔
      strip (c :: l) = [c] ∨ strip (c :: l) = [] := by
  have hsingleton : upper env.casing.toCaseMapping [c] = env.casing.upper c := List.append_nil _
  by_cases hc : isSpace c = true
  · have hspace : strip (upper env.casing.toCaseMapping [c]) = [] := by
      rw [hsingleton, env.casing.upper_space c hc]
      exact (strip_concat (l := []) hc).trans rfl
    have hne : strip (c :: l) ≠ [c] := by
      intro h
      have hhead := head?_strip (c :: l) c (by rw [h]; rfl)
      rw [hc] at hhead
      cases hhead
    rw [hspace, upper_eq_nil]
    exact (or_iff_right hne).symm
  · have hc' : isSpace c = false := Bool.eq_false_iff.mpr hc
    obtain ⟨rest, hrest⟩ := strip_cons hc' l
    have hword : strip (upper env.casing.toCaseMapping [c]) = env.casing.upper c := by
      rw [hsingleton]
      exact strip_eq_self (env.casing.upper_word c hc')
    rw [hword, hrest, upper, List.flatMap_cons, ← upper, List.append_right_eq_self, upper_eq_nil]
    constructor
    · rintro rfl
      exact Or.inl rfl
    · rintro (h | h)
      · exact (List.cons.inj h).2
      · cases h

/-- The extension is looked up by its first character. -/
theorem extensionDenotes_iff (text : HexaText) :
    env.ExtensionDenotes text (extensionOf env.casing text) ↔ env.RegularExtension text := by
  cases text with
  | nil => exact iff_of_true rfl trivial
  | cons c l =>
      cases hfound : LaneExtension.withSimilarNameOrValue env.casing [c] with
      | some ext =>
          rw [extensionOf.eq_def, RegularExtension.eq_def]
          simp only [hfound, ExtensionDenotes]
      | none =>
          rw [extensionOf.eq_def, RegularExtension.eq_def]
          simp only [hfound, ExtensionDenotes]
          exact upper_strip_cons_iff c l

theorem extensionDenotes_strip {text extension : HexaText} (e : Extension) (h : strip text = strip extension) :
    env.ExtensionDenotes text e ↔ env.ExtensionDenotes extension e := by
  unfold ExtensionDenotes
  rw [h]

theorem numberDenotes_iff {field number extension : HexaText} (h : laneNumber field = some (number, extension)) :
    env.NumberDenotes field number (extensionOf env.casing extension) ↔ env.RegularExtension extension := by
  obtain ⟨text, htext, hstrip⟩ := laneNumber_append h
  rw [← extensionDenotes_iff, ← extensionDenotes_strip _ hstrip]
  constructor
  · rintro ⟨text', htext', hdenotes⟩
    rwa [List.append_cancel_left (htext.symm.trans htext')]
  · exact fun hdenotes => ⟨text, htext, hdenotes⟩

theorem numberOf_eq (field : Option HexaText) :
    env.numberOf field =
      if field.getD [] = [] then some ([], ⟨none, []⟩)
      else (laneNumber (field.getD [])).map fun found => (found.1, extensionOf env.casing found.2) := by
  rcases field with _ | _ | ⟨c, l⟩
  · rfl
  · rfl
  · exact (if_neg (List.cons_ne_nil c l)).symm

theorem regularNumber_iff {data : GeocodingData} {number : HexaText} {extension : Extension}
    (h : env.numberOf data.number = some (number, extension)) :
    env.RegularNumber data ↔ (laneOf data ≠ [] → env.NumberDenotes (data.number.getD []) number extension) := by
  rw [numberOf_eq] at h
  split at h
  · rename_i hempty
    cases h
    refine iff_of_true (fun hne => absurd hempty hne) fun _ => ⟨[], ?_, rfl⟩
    rw [hempty]
    rfl
  · rename_i hne
    obtain ⟨⟨number', text⟩, hfound, hpair⟩ := Option.map_eq_some_iff.mp h
    cases hpair
    rw [numberDenotes_iff hfound]
    constructor
    · intro hregular
      obtain ⟨found, hfound', hregular⟩ := hregular hne
      rw [hfound] at hfound'
      cases hfound'
      exact hregular
    · exact fun hregular _ => ⟨_, hfound, hregular⟩

theorem numberOf_eq_none {data : GeocodingData} (h : env.numberOf data.number = none) : ¬ env.RegularNumber data := by
  rw [numberOf_eq] at h
  split at h
  · cases h
  · rename_i hne
    intro hregular
    obtain ⟨found, hfound, -⟩ := hregular hne
    rw [hfound] at h
    cases h

/-! ## The lane -/

/-- The first word of a lane is left out when there is another one. -/
theorem laneDenotes_iff {lane first rest : HexaText} (h : splitOnce lane = some (first, rest)) :
    env.LaneDenotes lane (laneTypeOf env.casing env.unidecode lane first) (if rest ≠ [] then rest else first) ↔
      (rest ≠ [] → (LaneType.withSimilarName env.casing first).isSome ∨
        (LaneType.withSimilarValue env.casing env.unidecode first).isSome ∨
        ∃ lt, LaneType.findAliases env.casing lane = some lt ∧ env.Spells first lt) := by
  by_cases hrest : rest = []
  · subst hrest
    have hwords : words first = words lane := (words_of_some (splitOnce_first h)).trans (words_of_some h).symm
    exact iff_of_true (Or.inl hwords) fun hne => absurd rfl hne
  · rw [if_pos hrest]
    have hlane : words lane = first :: words rest := words_of_some h
    have hdenotes : env.LaneDenotes lane (laneTypeOf env.casing env.unidecode lane first) rest ↔
        env.RecognisedIn lane first (laneTypeOf env.casing env.unidecode lane first) := by
      constructor
      · rintro (hwords | ⟨first', hwords, hrecognised⟩)
        · rw [hlane] at hwords
          exact absurd hwords.symm (List.cons_ne_self first _)
        · rw [hlane] at hwords
          rwa [← (List.cons.inj hwords).1] at hrecognised
      · exact fun hrecognised => Or.inr ⟨first, hlane, hrecognised⟩
    rw [hdenotes, RecognisedIn, laneTypeOf]
    cases LaneType.withSimilarName env.casing first with
    | some lt => exact iff_of_true (Or.inl rfl) fun _ => Or.inl rfl
    | none =>
        cases LaneType.withSimilarValue env.casing env.unidecode first with
        | some lt => exact iff_of_true (Or.inr (Or.inl rfl)) fun _ => Or.inr (Or.inl rfl)
        | none =>
            cases LaneType.findAliases env.casing lane with
            | some lt => simp [hrest]
            | none => simp [hrest]

theorem regularLane_iff {data : GeocodingData} {first rest : HexaText} (hlane : laneOf data ≠ [])
    (h : splitOnce (env.unidecode (laneOf data)) = some (first, rest)) :
    env.RegularLane data ↔
      env.LaneDenotes (env.unidecode (laneOf data))
        (laneTypeOf env.casing env.unidecode (env.unidecode (laneOf data)) first)
        (if rest ≠ [] then rest else first) := by
  rw [laneDenotes_iff h]
  constructor
  · intro hregular
    obtain ⟨first', rest', h', hregular⟩ := hregular hlane
    rw [h] at h'
    cases h'
    exact hregular
  · exact fun hregular _ => ⟨first, rest, h, hregular⟩

/-! ## The result -/

theorem format_of_noLane (obj : AddressObject) {data : GeocodingData} {found : HexaText × Extension}
    (hfound : env.numberOf data.number = some found) (h : laneOf data = []) :
    env.format obj data = some (.error .unknownAddressLane) := by
  rw [format, hfound]
  exact if_pos h

theorem format_of_lane (obj : AddressObject) {data : GeocodingData} {found : HexaText × Extension}
    (hfound : env.numberOf data.number = some found) (h : laneOf data ≠ []) :
    env.format obj data = do
      let split ← splitOnce (env.unidecode (laneOf data))
      let postCode ← env.postCodeOf data
      return .ok (env.resultOf obj data found.1 found.2 split.1 split.2 postCode) := by
  rw [format, hfound]
  exact if_neg h

theorem postCodeOf_isSome_iff {data : GeocodingData} :
    (∃ postCode, env.postCodeOf data = some postCode) ↔
      (data.postCode.getD [] = [] → data.inseeCode.getD [] ≠ [] →
        ∃ postCode postCodes, env.postCodes (data.inseeCode.getD []) = some (postCode :: postCodes)) := by
  rw [postCodeOf]
  split
  · rename_i hcity
    refine ⟨?_, fun h => ?_⟩
    · rintro ⟨postCode, hpostCode⟩ - -
      obtain ⟨postCodes, hpostCodes, hhead⟩ := Option.bind_eq_some_iff.mp hpostCode
      cases postCodes with
      | nil => cases hhead
      | cons postCode postCodes => exact ⟨postCode, postCodes, hpostCodes⟩
    · obtain ⟨postCode, postCodes, hpostCodes⟩ := h hcity.1 hcity.2
      exact ⟨some postCode, by rw [hpostCodes]; rfl⟩
  · rename_i hcity
    exact iff_of_true ⟨_, rfl⟩ fun hpostCode hinseeCode => absurd ⟨hpostCode, hinseeCode⟩ hcity

/-- What follows the answer of the API returns, and keeps the answer, exactly when it is regular. -/
theorem format_iff (obj : AddressObject) (data : GeocodingData) :
    (∃ outcome, env.format obj data = some outcome ∧ ∀ result, outcome = .ok result → env.Denotes data result) ↔
      env.RegularAnswer data := by
  cases hfound : env.numberOf data.number with
  | none =>
      refine iff_of_false ?_ fun hregular => numberOf_eq_none hfound hregular.number
      rintro ⟨outcome, houtcome, -⟩
      rw [format, hfound] at houtcome
      cases houtcome
  | some found =>
      obtain ⟨number, extension⟩ := found
      have hnumber := regularNumber_iff hfound
      by_cases hlane : laneOf data = []
      · refine iff_of_true ⟨_, format_of_noLane obj hfound hlane, fun result hresult => nomatch hresult⟩ ?_
        exact ⟨hnumber.mpr fun hne => absurd hlane hne, fun hne => absurd hlane hne, fun hne => absurd hlane hne⟩
      · rw [format_of_lane obj hfound hlane]
        cases hsplit : splitOnce (env.unidecode (laneOf data)) with
        | none =>
            refine iff_of_false ?_ fun hregular => ?_
            · rintro ⟨outcome, houtcome, -⟩
              cases houtcome
            · obtain ⟨first, rest, hsplit', -⟩ := hregular.lane hlane
              rw [hsplit] at hsplit'
              cases hsplit'
        | some split =>
            obtain ⟨first, rest⟩ := split
            cases hpostCode : env.postCodeOf data with
            | none =>
                refine iff_of_false ?_ fun hregular => ?_
                · rintro ⟨outcome, houtcome, -⟩
                  cases houtcome
                · obtain ⟨postCode, hpostCode'⟩ := postCodeOf_isSome_iff.mpr (hregular.postCode hlane)
                  rw [hpostCode] at hpostCode'
                  cases hpostCode'
            | some postCode =>
                have hregularPostCode : env.RegularPostCode data :=
                  fun _ => postCodeOf_isSome_iff.mp ⟨postCode, hpostCode⟩
                have hregularLane := regularLane_iff hlane hsplit
                constructor
                · rintro ⟨outcome, houtcome, hdenotes⟩
                  cases houtcome
                  have hdenotes := hdenotes _ rfl
                  exact ⟨hnumber.mpr fun _ => hdenotes.number, hregularLane.mpr hdenotes.lane, hregularPostCode⟩
                · rintro ⟨hregularNumber, hlaneRegular, -⟩
                  refine ⟨_, rfl, fun result hresult => ?_⟩
                  cases hresult
                  exact ⟨hnumber.mp hregularNumber hlane, hregularLane.mp hlaneRegular⟩

/-! ## The answer -/

theorem item_isSome_iff {α : Type} (field : JsonField α) : (∃ v, field.item = some v) ↔ field ≠ .missing := by
  cases field <;> simp [JsonField.item]

theorem data_isSome_iff (p : Properties) (point : Option Nat) :
    (∃ data, p.data point = some data) ↔
      point.isSome ∧ p.score ≠ .missing ∧ p.name ≠ .missing ∧ p.citycode ≠ .missing ∧ p.city ≠ .missing := by
  simp only [← item_isSome_iff, Option.isSome_iff_exists, Properties.data]
  constructor
  · rintro ⟨data, hdata⟩
    obtain ⟨coords, hcoords, hdata⟩ := Option.bind_eq_some_iff.mp hdata
    obtain ⟨score, hscore, hdata⟩ := Option.bind_eq_some_iff.mp hdata
    obtain ⟨address, haddress, hdata⟩ := Option.bind_eq_some_iff.mp hdata
    obtain ⟨inseeCode, hinseeCode, hdata⟩ := Option.bind_eq_some_iff.mp hdata
    obtain ⟨city, hcity, -⟩ := Option.bind_eq_some_iff.mp hdata
    exact ⟨⟨coords, hcoords⟩, ⟨score, hscore⟩, ⟨address, haddress⟩, ⟨inseeCode, hinseeCode⟩, ⟨city, hcity⟩⟩
  · rintro ⟨⟨coords, hcoords⟩, ⟨score, hscore⟩, ⟨address, haddress⟩, ⟨inseeCode, hinseeCode⟩, ⟨city, hcity⟩⟩
    rw [hcoords, hscore, haddress, hinseeCode, hcity]
    exact ⟨_, rfl⟩

section Answer

variable {obj : AddressObject} {address : HexaText}

theorem computeHexaAddress_of_address (haddress : obj.geocodingAddress = some address) (hne : address ≠ []) :
    env.computeHexaAddress obj =
      match getGeocodingData env.callBanGeocodingApi address (some obj.postCode) with
      | none => none
      | some (.error error) => some (.error (.geocodingApi error))
      | some (.ok data) => env.format obj data := by
  cases address with
  | nil => exact absurd rfl hne
  | cons c address =>
      rewrite [computeHexaAddress, haddress]
      rfl

theorem not_faithful (haddress : obj.geocodingAddress = some address) (hne : address ≠ [])
    (h : getGeocodingData env.callBanGeocodingApi address (some obj.postCode) = none) : ¬ env.Faithful obj := by
  rintro ⟨outcome, houtcome, -⟩
  rw [computeHexaAddress_of_address haddress hne, h] at houtcome
  cases houtcome

theorem faithful_of_error {error : GeocodingDataError} (haddress : obj.geocodingAddress = some address)
    (hne : address ≠ [])
    (h : getGeocodingData env.callBanGeocodingApi address (some obj.postCode) = some (.error error)) :
    env.Faithful obj := by
  refine ⟨.error (.geocodingApi error), ?_, fun result hresult => nomatch hresult⟩
  rw [computeHexaAddress_of_address haddress hne, h]

theorem faithful_of_data {data : GeocodingData} (haddress : obj.geocodingAddress = some address) (hne : address ≠ [])
    (h : getGeocodingData env.callBanGeocodingApi address (some obj.postCode) = some (.ok data)) :
    env.Faithful obj ↔ env.RegularAnswer data := by
  rw [← format_iff obj data, Faithful, computeHexaAddress_of_address haddress hne, h]
  constructor
  · rintro ⟨outcome, houtcome, hdenotes⟩
    refine ⟨outcome, houtcome, fun result hresult => ?_⟩
    obtain ⟨address', data', haddress', h', hdenotes⟩ := hdenotes result hresult
    obtain rfl : address = address' := Option.some.inj (haddress.symm.trans haddress')
    rw [h] at h'
    cases h'
    exact hdenotes
  · rintro ⟨outcome, houtcome, hdenotes⟩
    exact ⟨outcome, houtcome, fun result hresult => ⟨address, data, haddress, h, hdenotes result hresult⟩⟩

theorem regular_of_properties {feature : Feature} {properties : Properties}
    (haddress : obj.geocodingAddress = some address) (hne : address ≠ [])
    (hfeature : geocodingFeature env.callBanGeocodingApi address (some obj.postCode) = some feature)
    (hproperties : feature.properties = some properties) :
    env.Regular obj ↔ ∃ data, properties.data feature.point = some data ∧ env.RegularAnswer data := by
  constructor
  · intro hregular
    obtain ⟨hkeys, hregular⟩ := hregular address feature properties haddress hne hfeature hproperties
    obtain ⟨data, hdata⟩ := (data_isSome_iff properties feature.point).mpr hkeys
    exact ⟨data, hdata, hregular data hdata⟩
  · rintro ⟨data, hdata, hregular⟩ address' feature' properties' haddress' - hfeature' hproperties'
    obtain rfl : address = address' := Option.some.inj (haddress.symm.trans haddress')
    obtain rfl : feature = feature' := Option.some.inj (hfeature.symm.trans hfeature')
    obtain rfl : properties = properties' := Option.some.inj (hproperties.symm.trans hproperties')
    refine ⟨(data_isSome_iff properties feature.point).mp ⟨data, hdata⟩, fun data' hdata' => ?_⟩
    rw [hdata] at hdata'
    cases hdata'
    exact hregular

/-- Without properties there is nothing to format. -/
theorem regular_of_noProperties (haddress : obj.geocodingAddress = some address)
    (h : ∀ feature ∈ geocodingFeature env.callBanGeocodingApi address (some obj.postCode), feature.properties = none) :
    env.Regular obj := by
  intro address' feature properties haddress' _ hfeature hproperties
  obtain rfl : address = address' := Option.some.inj (haddress.symm.trans haddress')
  rw [h feature hfeature] at hproperties
  cases hproperties

end Answer

end Environment

end Itou.Addresses
