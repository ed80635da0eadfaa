import Itou.Lib.Words

/-!
# HEXA addresses

`LaneType` and `LaneExtension`, with the lookups that guess a member from a text.

`compute_hexa_address`, with the answer of the geocoding API, the transliteration `unidecode` and the cities as
parameters. `none` stands for an exception that is not caught.
-/

namespace Itou.Addresses

open Itou.Lib

/-! ## Lane types -/

/-- `LaneType`. -/
inductive LaneType where
  | aer | agl | aire | all | ach | art | av | begi | bd | brg | cpg | car | ctre | ccal | cht | chs | chem
  | chv | cite | clos | ctr | cor | cote | cour | crs | dsc | dom | ecl | esc | espa | esp | fg | frm | fon
  | gal | gare | gbd | gpl | gr | gri | ham | imm | imp | jard | ld | lot | mail | mais | mas | mte | parc
  | prv | pas | ple | pch | prt | ptr | pl | ptte | pln | plan | plt | pont | port | prom | quai | quar | rpe
  | remp | res | roc | rpt | rtd | rte | rue | rle | sen | sent | sq | tpl | trav | ven | vte | vche | vill
  | vlge | voie | zone | za | zac | zad | zi | zup
  deriving DecidableEq

namespace LaneType

def members : List LaneType :=
  [.aer, .agl, .aire, .all, .ach, .art, .av, .begi, .bd, .brg, .cpg, .car, .ctre, .ccal, .cht, .chs, .chem,
   .chv, .cite, .clos, .ctr, .cor, .cote, .cour, .crs, .dsc, .dom, .ecl, .esc, .espa, .esp, .fg, .frm, .fon,
   .gal, .gare, .gbd, .gpl, .gr, .gri, .ham, .imm, .imp, .jard, .ld, .lot, .mail, .mais, .mas, .mte, .parc,
   .prv, .pas, .ple, .pch, .prt, .ptr, .pl, .ptte, .pln, .plan, .plt, .pont, .port, .prom, .quai, .quar, .rpe,
   .remp, .res, .roc, .rpt, .rtd, .rte, .rue, .rle, .sen, .sent, .sq, .tpl, .trav, .ven, .vte, .vche, .vill,
   .vlge, .voie, .zone, .za, .zac, .zad, .zi, .zup]

/-- The name of a member, which is its value too. -/
def name : LaneType → String
  | .aer => "AER" | .agl => "AGL" | .aire => "AIRE" | .all => "ALL" | .ach => "ACH" | .art => "ART"
  | .av => "AV" | .begi => "BEGI" | .bd => "BD" | .brg => "BRG" | .cpg => "CPG" | .car => "CAR"
  | .ctre => "CTRE" | .ccal => "CCAL" | .cht => "CHT" | .chs => "CHS" | .chem => "CHEM" | .chv => "CHV"
  | .cite => "CITE" | .clos => "CLOS" | .ctr => "CTR" | .cor => "COR" | .cote => "COTE" | .cour => "COUR"
  | .crs => "CRS" | .dsc => "DSC" | .dom => "DOM" | .ecl => "ECL" | .esc => "ESC" | .espa => "ESPA"
  | .esp => "ESP" | .fg => "FG" | .frm => "FRM" | .fon => "FON" | .gal => "GAL" | .gare => "GARE"
  | .gbd => "GBD" | .gpl => "GPL" | .gr => "GR" | .gri => "GRI" | .ham => "HAM" | .imm => "IMM" | .imp => "IMP"
  | .jard => "JARD" | .ld => "LD" | .lot => "LOT" | .mail => "MAIL" | .mais => "MAIS" | .mas => "MAS"
  | .mte => "MTE" | .parc => "PARC" | .prv => "PRV" | .pas => "PAS" | .ple => "PLE" | .pch => "PCH"
  | .prt => "PRT" | .ptr => "PTR" | .pl => "PL" | .ptte => "PTTE" | .pln => "PLN" | .plan => "PLAN"
  | .plt => "PLT" | .pont => "PONT" | .port => "PORT" | .prom => "PROM" | .quai => "QUAI" | .quar => "QUAR"
  | .rpe => "RPE" | .remp => "REMP" | .res => "RES" | .roc => "ROC" | .rpt => "RPT" | .rtd => "RTD"
  | .rte => "RTE" | .rue => "RUE" | .rle => "RLE" | .sen => "SEN" | .sent => "SENT" | .sq => "SQ"
  | .tpl => "TPL" | .trav => "TRAV" | .ven => "VEN" | .vte => "VTE" | .vche => "VCHE" | .vill => "VILL"
  | .vlge => "VLGE" | .voie => "VOIE" | .zone => "ZONE" | .za => "ZA" | .zac => "ZAC" | .zad => "ZAD"
  | .zi => "ZI" | .zup => "ZUP"

def label : LaneType → String
  | .aer => "Aérodrome" | .agl => "Agglomération" | .aire => "Aire" | .all => "Allée" | .ach => "Ancien chemin"
  | .art => "Ancienne route" | .av => "Avenue" | .begi => "Beguinage" | .bd => "Boulevard" | .brg => "Bourg"
  | .cpg => "Camping" | .car => "Carrefour" | .ctre => "Centre" | .ccal => "Centre commercial"
  | .cht => "Chateau" | .chs => "Chaussee" | .chem => "Chemin" | .chv => "Chemin vicinal" | .cite => "Cité"
  | .clos => "Clos" | .ctr => "Contour" | .cor => "Corniche" | .cote => "Coteaux" | .cour => "Cour"
  | .crs => "Cours" | .dsc => "Descente" | .dom => "Domaine" | .ecl => "Ecluse" | .esc => "Escalier"
  | .espa => "Espace" | .esp => "Esplanade" | .fg => "Faubourg" | .frm => "Ferme" | .fon => "Fontaine"
  | .gal => "Galerie" | .gare => "Gare" | .gbd => "Grand boulevard" | .gpl => "Grande place"
  | .gr => "Grande rue" | .gri => "Grille" | .ham => "Hameau" | .imm => "Immeuble(s)" | .imp => "Impasse"
  | .jard => "Jardin" | .ld => "Lieu-dit" | .lot => "Lotissement" | .mail => "Mail" | .mais => "Maison"
  | .mas => "Mas" | .mte => "Montee" | .parc => "Parc" | .prv => "Parvis" | .pas => "Passage"
  | .ple => "Passerelle" | .pch => "Petit chemin" | .prt => "Petite route" | .ptr => "Petite rue"
  | .pl => "Place" | .ptte => "Placette" | .pln => "Plaine" | .plan => "Plan" | .plt => "Plateau"
  | .pont => "Pont" | .port => "Port" | .prom => "Promenade" | .quai => "Quai" | .quar => "Quartier"
  | .rpe => "Rampe" | .remp => "Rempart" | .res => "Residence" | .roc => "Rocade" | .rpt => "Rond-point"
  | .rtd => "Rotonde" | .rte => "Route" | .rue => "Rue" | .rle => "Ruelle" | .sen => "Sente"
  | .sent => "Sentier" | .sq => "Square" | .tpl => "Terre plein" | .trav => "Traverse" | .ven => "Venelle"
  | .vte => "Vieille route" | .vche => "Vieux chemin" | .vill => "Villa" | .vlge => "Village" | .voie => "Voie"
  | .zone => "Zone" | .za => "Zone d'activite" | .zac => "Zone d'amenagement concerte"
  | .zad => "Zone d'amenagement differe" | .zi => "Zone industrielle" | .zup => "Zone urbanisation prio"

variable (casing : Casing) (unidecode : List Char → List Char)

/-- `with_similar_name`. -/
def withSimilarName (name : List Char) : Option LaneType :=
  members.find? fun lt => lt.name.toList = upper casing.toCaseMapping name

/-- The label of a member, as it is compared. -/
def searchLabel (lt : LaneType) : List Char := unidecode (lower casing lt.label.toList)

/-- `with_similar_value`. The last member of a label counts. -/
def withSimilarValue (value : List Char) : Option LaneType :=
  members.reverse.find? fun lt => lt.searchLabel casing unidecode = lower casing value

/-- `_LANE_TYPE_ALIASES`: the starts that each expression matches. -/
def aliases : List (List String × LaneType) :=
  [(["r"], .rue), (["che"], .chem), (["grand rue", "grand-rue", "grande rue", "grande-rue"], .gr), (["qu"], .quai),
   (["voies"], .voie), (["domaines"], .dom), (["allees"], .all),
   (["lie dit", "lie-dit", "lieu dit", "lieu-dit"], .ld)]

/-- `find_lane_type_aliases`. -/
def findAliases (lane : List Char) : Option LaneType :=
  (aliases.find? fun entry => entry.1.any fun start => start.toList.isPrefixOf (lower casing lane)).map (·.2)

end LaneType

/-! ## Lane extensions -/

/-- `LaneExtension`. -/
inductive LaneExtension where
  | b
  | t
  | q
  | c
  deriving DecidableEq

namespace LaneExtension

def members : List LaneExtension := [.b, .t, .q, .c]

/-- The name of a member, which is its value too. -/
def name : LaneExtension → String
  | b => "B"
  | t => "T"
  | q => "Q"
  | c => "C"

def label : LaneExtension → String
  | b => "Bis"
  | t => "Ter"
  | q => "Quater"
  | c => "Quinquies"

/-- `with_similar_name_or_value`. -/
def withSimilarNameOrValue (casing : Casing) (s : List Char) : Option LaneExtension :=
  members.find? fun elt => lower casing s = lower casing elt.name.toList

end LaneExtension

abbrev HexaText := List Char

/-! ## The geocoding API -/

/-- A property of an answer. -/
inductive JsonField (α : Type) where
  | missing
  | null
  | value (value : α)
  deriving DecidableEq

/-- `properties.get(key)`. -/
def JsonField.get {α : Type} : JsonField α → Option α
  | missing => none
  | null => none
  | value v => some v

/-- `properties[key]`, which raises `KeyError`. -/
def JsonField.item {α : Type} : JsonField α → Option (Option α)
  | missing => none
  | null => some none
  | value v => some (some v)

/-- The properties that `get_geocoding_data` reads. Points and scores are only copied, and numbers stand for them. -/
structure Properties where
  score : JsonField Nat
  housenumber : JsonField HexaText
  street : JsonField HexaText
  name : JsonField HexaText
  postcode : JsonField HexaText
  citycode : JsonField HexaText
  city : JsonField HexaText
  deriving DecidableEq

/-- An answer of the API, of which the properties can be empty. `point` is made of the two coordinates of its geometry,
unless a key or a coordinate is missing or `GEOSGeometry` raises. -/
structure Feature where
  properties : Option Properties
  point : Option Nat
  deriving DecidableEq

structure GeocodingData where
  score : Option Nat
  coords : Nat
  number : Option HexaText
  lane : Option HexaText
  address : Option HexaText
  postCode : Option HexaText
  inseeCode : Option HexaText
  city : Option HexaText
  deriving DecidableEq

/-- The messages of `GeocodingDataError` and of `AddressLookupError`, which is one. -/
inductive GeocodingDataError where
  | empty
  | lookup (address : HexaText)
  deriving DecidableEq

/-- The dictionary of an answer. -/
def Properties.data (p : Properties) (point : Option Nat) : Option GeocodingData := do
  let coords ← point
  let score ← p.score.item
  let address ← p.name.item
  let inseeCode ← p.citycode.item
  let city ← p.city.item
  return {
    score, coords, number := p.housenumber.get, lane := p.street.get, address, postCode := p.postcode.get, inseeCode,
    city }

/-- The feature that is used. The call without a post code is made for the overseas departments. -/
def geocodingFeature (callBanGeocodingApi : HexaText → Option HexaText → Option Feature) (address : HexaText)
    (postCode : Option HexaText) : Option Feature :=
  let overseas := postCode.any fun postCode => postCode.take 2 = ['9', '7'] || postCode.take 2 = ['9', '8']
  callBanGeocodingApi address postCode <|> if overseas then callBanGeocodingApi address none else none

/-- `get_geocoding_data`. -/
def getGeocodingData (callBanGeocodingApi : HexaText → Option HexaText → Option Feature) (address : HexaText)
    (postCode : Option HexaText) : Option (Except GeocodingDataError GeocodingData) :=
  match geocodingFeature callBanGeocodingApi address postCode with
  | none => some (.error .empty)
  | some feature =>
      match feature.properties with
      | none => some (.error (.lookup address))
      | some properties => (properties.data feature.point).map .ok

/-! ## Parts of an address -/

/-- `[0-9]`. -/
def isLaneDigit (c : Char) : Bool := '0' ≤ c && c ≤ '9'

/-- The text before the end of its line, when this is the end of the text. -/
def untilLineEnd (l : HexaText) : Option HexaText :=
  if '\n' ∉ l then some l
  else if l.getLast? = some '\n' ∧ '\n' ∉ l.dropLast then some l.dropLast
  else none

/-- `re.findall(LANE_NUMBER_RE, …)`, which gives one match at most. -/
def laneNumber (l : HexaText) : Option (HexaText × HexaText) :=
  let number := (l.takeWhile isLaneDigit).take 5
  if number = [] then none else (untilLineEnd (l.drop number.length)).map fun extension => (number, extension)

/-- `ADDITIONAL_ADDRESS_RE`, with the end of line that `$` allows. -/
def additionalAddressRegex (l : HexaText) : Bool :=
  let matchAll (l : HexaText) := l.length ≤ 32 && l.all fun c => c.isAlphanum || c = '@' || c = ' '
  matchAll l || (l.getLast? = some '\n' && matchAll l.dropLast)

/-- The extension in `result`. -/
structure Extension where
  stdExtension : Option LaneExtension
  nonStdExtension : HexaText
  deriving DecidableEq

/-- The first character of the extension is kept. -/
def extensionOf (casing : Casing) : HexaText → Extension
  | [] => ⟨none, []⟩
  | c :: _ =>
      match LaneExtension.withSimilarNameOrValue casing [c] with
      | some ext => ⟨some ext, []⟩
      | none => ⟨none, upper casing.toCaseMapping [c]⟩

/-- The lane type of a lane and of its first word. -/
def laneTypeOf (casing : Casing) (unidecode : HexaText → HexaText) (lane first : HexaText) : LaneType :=
  (LaneType.withSimilarName casing first <|> LaneType.withSimilarValue casing unidecode first <|>
    LaneType.findAliases casing lane).getD .ld

/-! ## `compute_hexa_address` -/

/-- The object. -/
structure AddressObject where
  geocodingAddress : Option HexaText
  postCode : HexaText
  addressLine2 : HexaText

structure HexaResult where
  number : HexaText
  extension : Extension
  additionalAddress : HexaText
  laneType : LaneType
  lane : HexaText
  inseeCode : Option HexaText
  city : Option HexaText
  postCode : Option HexaText
  deriving DecidableEq

inductive HexaError where
  | incompleteAddressData
  | geocodingApi (error : GeocodingDataError)
  | unknownAddressLane
  deriving DecidableEq

/-- What is not defined in the module. `unidecode` comes from a package, and `postCodes` gives the post codes of the city
that has an INSEE code. -/
structure Environment where
  casing : Casing
  unidecode : HexaText → HexaText
  callBanGeocodingApi : HexaText → Option HexaText → Option Feature
  postCodes : HexaText → Option (List HexaText)

namespace Environment

variable (env : Environment)

/-- The number and its extension. -/
def numberOf : Option HexaText → Option (HexaText × Extension)
  | none => some ([], ⟨none, []⟩)
  | some [] => some ([], ⟨none, []⟩)
  | some numberPlusExt => (laneNumber numberPlusExt).map fun found => (found.1, extensionOf env.casing found.2)

/-- `address.get("lane") or address.get("address")`. -/
def laneOf (data : GeocodingData) : HexaText :=
  if data.lane.getD [] ≠ [] then data.lane.getD [] else data.address.getD []

/-- The post code of the answer, or else the first one of the city. -/
def postCodeOf (data : GeocodingData) : Option (Option HexaText) :=
  if data.postCode.getD [] = [] ∧ data.inseeCode.getD [] ≠ [] then
    -- The city may be missing, and have no post code.
    (env.postCodes (data.inseeCode.getD [])).bind fun postCodes => postCodes.head?.map some
  else some data.postCode

/-- The result, with the first word of the lane apart. -/
def resultOf (obj : AddressObject) (data : GeocodingData) (number : HexaText) (extension : Extension)
    (first rest : HexaText) (postCode : Option HexaText) : HexaResult where
  number
  extension
  additionalAddress :=
    let additionalAddress := env.unidecode obj.addressLine2
    if additionalAddressRegex additionalAddress then additionalAddress else []
  laneType := laneTypeOf env.casing env.unidecode (env.unidecode (laneOf data)) first
  lane := if rest ≠ [] then rest else first
  inseeCode := data.inseeCode
  city := data.city
  postCode

/-- What follows the answer of the API. -/
def format (obj : AddressObject) (data : GeocodingData) : Option (Except HexaError HexaResult) := do
  let (number, extension) ← env.numberOf data.number
  if laneOf data = [] then return .error .unknownAddressLane
  let (first, rest) ← splitOnce (env.unidecode (laneOf data))
  let postCode ← env.postCodeOf data
  return .ok (env.resultOf obj data number extension first rest postCode)

def computeHexaAddress (obj : AddressObject) : Option (Except HexaError HexaResult) :=
  match obj.geocodingAddress with
  | none => some (.error .incompleteAddressData)
  | some [] => some (.error .incompleteAddressData)
  | some geocodingAddress =>
      match getGeocodingData env.callBanGeocodingApi geocodingAddress (some obj.postCode) with
      | none => none
      | some (.error error) => some (.error (.geocodingApi error))
      | some (.ok data) => env.format obj data

/-! ## What a result denotes -/

/-- A text is the extension: the name or the label of a member, or the text that is kept as it is. -/
def ExtensionDenotes (text : HexaText) (extension : Extension) : Prop :=
  match extension.stdExtension with
  | some ext =>
      lower env.casing (strip text) ∈ [lower env.casing ext.name.toList, lower env.casing ext.label.toList]
  | none => upper env.casing.toCaseMapping (strip text) = strip extension.nonStdExtension

/-- The field is the number followed by the extension. -/
def NumberDenotes (field number : HexaText) (extension : Extension) : Prop :=
  ∃ text, field = number ++ text ∧ env.ExtensionDenotes text extension

/-- A word spells a label: without its last dot and part by part, it abbreviates the label or is its plural. -/
def Spells (first : HexaText) (lt : LaneType) : Prop :=
  let parts (l : HexaText) := l.splitOnP fun c => c = '-' ∨ c = ' '
  let spelled := lower env.casing (if first.getLast? = some '.' then first.dropLast else first)
  let label := parts (lt.searchLabel env.casing env.unidecode)
  (parts spelled).length ≤ label.length ∧
    ∀ pair ∈ (parts spelled).zip label, (pair.1 ≠ [] ∧ pair.1 <+: pair.2) ∨ pair.1 = pair.2 ++ ['s']

/-- The first word of a lane stands for a lane type. -/
def RecognisedIn (lane first : HexaText) (lt : LaneType) : Prop :=
  LaneType.withSimilarName env.casing first = some lt ∨
    LaneType.withSimilarValue env.casing env.unidecode first = some lt ∨
    (LaneType.findAliases env.casing lane = some lt ∧ env.Spells first lt)

/-- A lane type and the rest of the lane are the lane: the words that are left out stand for the lane type. -/
def LaneDenotes (lane : HexaText) (lt : LaneType) (kept : HexaText) : Prop :=
  words kept = words lane ∨ ∃ first, words lane = first :: words kept ∧ env.RecognisedIn lane first lt

/-- A result denotes the number and the lane of the answer. -/
structure Denotes (data : GeocodingData) (result : HexaResult) : Prop where
  number : env.NumberDenotes (data.number.getD []) result.number result.extension
  lane : env.LaneDenotes (env.unidecode (laneOf data)) result.laneType result.lane

/-- `compute_hexa_address` returns, and its result denotes the answer. -/
def Faithful (obj : AddressObject) : Prop :=
  ∃ outcome, env.computeHexaAddress obj = some outcome ∧ ∀ result, outcome = .ok result →
    ∃ address data, obj.geocodingAddress = some address ∧
      getGeocodingData env.callBanGeocodingApi address (some obj.postCode) = some (.ok data) ∧ env.Denotes data result

/-! ## The answers that are formatted well -/

/-- One character is the whole extension, or gives a member of which it is the name or the label. -/
def RegularExtension : HexaText → Prop
  | [] => True
  | c :: l =>
      match LaneExtension.withSimilarNameOrValue env.casing [c] with
      | some ext =>
          lower env.casing (strip (c :: l)) ∈ [lower env.casing ext.name.toList, lower env.casing ext.label.toList]
      | none => strip (c :: l) = [c] ∨ strip (c :: l) = []

/-- The number starts with a digit and is on one line. Its extension counts when there is a lane. -/
def RegularNumber (data : GeocodingData) : Prop :=
  data.number.getD [] ≠ [] →
    ∃ found, laneNumber (data.number.getD []) = some found ∧ (laneOf data ≠ [] → env.RegularExtension found.2)

/-- The lane has a word, and a word that is left out is a name, a label or a spelling of the lane type. -/
def RegularLane (data : GeocodingData) : Prop :=
  laneOf data ≠ [] → ∃ first rest, splitOnce (env.unidecode (laneOf data)) = some (first, rest) ∧
    (rest ≠ [] → (LaneType.withSimilarName env.casing first).isSome ∨
      (LaneType.withSimilarValue env.casing env.unidecode first).isSome ∨
      ∃ lt, LaneType.findAliases env.casing (env.unidecode (laneOf data)) = some lt ∧ env.Spells first lt)

/-- A city stands for a missing post code. -/
def RegularPostCode (data : GeocodingData) : Prop :=
  laneOf data ≠ [] → data.postCode.getD [] = [] → data.inseeCode.getD [] ≠ [] →
    ∃ postCode postCodes, env.postCodes (data.inseeCode.getD []) = some (postCode :: postCodes)

structure RegularAnswer (data : GeocodingData) : Prop where
  number : env.RegularNumber data
  lane : env.RegularLane data
  postCode : env.RegularPostCode data

/-- The answer that is used has a point and the keys that are read, and is regular. -/
def Regular (obj : AddressObject) : Prop :=
  ∀ address feature properties, obj.geocodingAddress = some address → address ≠ [] →
    geocodingFeature env.callBanGeocodingApi address (some obj.postCode) = some feature →
    feature.properties = some properties →
    (feature.point.isSome ∧ properties.score ≠ .missing ∧ properties.name ≠ .missing ∧
        properties.citycode ≠ .missing ∧ properties.city ≠ .missing) ∧
      ∀ data, properties.data feature.point = some data → env.RegularAnswer data

end Environment

end Itou.Addresses
