import Parcel.Text.CodeSet

/-!
# Lower case

Names are compared without regard to case when a similar one is looked for. A character has one
lower-case form, except a dotted capital I, which has two characters, and a capital sigma, which
has a form of its own at the end of a word.
-/

namespace Parcel.Text

/-- The characters that have case. -/
def cased : CodeSet := ⟨[
  65,26,6,26,47,1,10,1,4,1,5,23,1,31,1,195,1,4,4,208,2,35,7,2,30,5,96,1,42,4,2,2,2,4,1,1,6,1,1,3,1,
  1,1,20,1,83,1,139,8,166,1,38,9,41,2839,38,1,1,5,1,2,43,1,4,672,86,2,6,2178,11,5,43,2,3,64,192,64,
  278,2,6,2,38,2,6,2,8,1,1,1,1,1,1,1,31,2,53,1,7,1,1,3,3,1,7,3,4,2,6,4,13,5,3,1,7,116,1,13,1,16,13,
  101,1,4,1,2,10,1,1,3,5,6,1,1,1,1,1,1,4,1,6,4,1,2,4,5,5,4,1,17,32,3,2,817,52,1814,229,6,4,3,2,12,
  38,1,1,5,1,30994,46,18,30,132,102,3,4,1,77,20,6,1,3,821,43,1,14,6,80,20288,7,12,5,1033,26,6,26,
  1189,80,96,36,4,36,116,11,1,15,1,7,1,2,1,11,1,15,1,7,1,2,451,1,2,3,1,42,1,9,1221,51,13,51,93,22,
  10,22,2842,64,21856,64,32,25,2,25,25900,85,1,71,1,2,2,1,2,2,2,4,1,12,1,1,1,7,1,65,1,4,2,8,1,7,1,
  28,1,4,1,5,1,1,3,7,1,340,2,25,1,25,1,31,1,25,1,31,1,25,1,31,1,25,1,31,1,25,1,8,1844,10,1,20,6,6,
  261,62,2194,68,2028,26,6,26,6,26]⟩

/-- The characters that are passed over when the neighbours of a letter are looked at. -/
def caseIgnorable : CodeSet := ⟨[
  39,1,6,1,11,1,35,1,1,1,71,1,4,1,1,1,4,1,2,2,503,192,4,2,4,1,9,2,1,1,251,7,207,1,5,1,49,45,1,1,1,2,
  1,2,1,1,44,1,11,6,10,11,1,1,35,1,10,21,16,1,101,8,1,10,1,4,33,1,1,1,30,27,91,11,58,11,4,1,2,1,24,
  24,43,3,44,1,7,2,5,9,41,58,55,1,1,1,4,8,4,1,3,7,10,2,13,1,15,1,58,1,4,4,8,1,20,2,26,1,2,2,57,1,4,
  2,4,2,2,3,3,1,30,2,3,1,11,2,57,1,4,5,1,2,4,1,20,2,22,6,1,1,58,1,2,1,1,4,8,1,7,2,11,2,30,1,61,1,12,
  1,50,1,3,1,55,1,1,3,5,3,1,4,7,2,11,2,29,1,58,1,2,1,6,1,5,2,20,2,28,2,57,2,4,4,8,1,20,2,29,1,72,1,
  7,3,1,1,90,1,2,7,11,9,98,1,2,9,9,1,1,7,73,2,27,1,1,1,1,1,55,14,1,5,1,2,5,11,1,36,9,1,102,4,1,6,1,
  2,2,2,25,2,4,3,16,4,13,1,2,2,6,1,15,1,94,1,608,3,946,3,29,2,30,2,30,2,64,2,1,7,8,1,2,11,3,1,5,1,
  45,5,51,1,65,2,34,1,118,3,4,2,9,1,6,3,219,2,2,1,58,1,1,7,1,1,1,1,2,8,6,10,2,1,39,1,8,46,2,12,20,4,
  48,1,1,5,1,1,5,1,40,9,12,2,32,4,2,2,1,3,56,1,1,2,3,1,1,3,58,8,2,2,64,6,82,3,1,13,1,7,4,1,6,1,3,2,
  50,63,13,1,34,101,445,1,1,3,11,3,13,3,13,3,13,2,12,5,8,2,10,1,2,1,2,5,49,5,1,10,1,1,13,1,16,13,51,
  33,2955,2,113,3,125,1,15,1,96,32,47,1,469,1,36,4,3,5,5,1,93,6,93,3,28438,1,1250,6,270,1,98,4,1,10,
  1,1,28,4,80,2,14,34,78,1,23,3,102,4,3,2,8,1,3,1,4,1,25,2,5,1,151,2,26,18,13,1,38,8,25,11,46,3,48,
  1,2,4,2,2,17,1,21,2,66,6,2,2,2,2,12,1,8,1,35,1,11,1,51,1,1,3,2,2,5,2,1,1,27,1,14,2,5,2,1,1,100,5,
  9,3,121,1,2,1,4,1,20272,1,147,17,573,16,3,1,12,16,34,1,2,1,169,1,7,1,6,1,11,1,35,1,1,1,47,1,45,2,
  67,1,21,3,513,1,226,1,149,5,1029,6,1,42,1,9,582,3,1,2,5,4,40,3,4,1,165,2,573,4,38,1,26,5,1,1,315,
  2,24,1,52,6,70,11,49,4,123,1,54,15,41,1,2,2,10,3,49,4,2,2,2,1,4,1,10,1,50,3,36,5,1,8,62,1,12,2,52,
  9,10,4,2,1,95,3,2,1,1,2,6,1,2,1,157,1,3,8,21,2,57,2,3,1,37,7,3,5,70,6,13,1,1,1,1,1,14,2,85,8,2,3,
  1,1,23,1,84,6,1,1,4,2,1,2,238,4,6,2,1,2,27,2,85,8,2,1,1,2,106,1,1,1,2,6,1,1,101,1,1,1,2,4,1,5,259,
  9,1,2,256,2,1,1,4,1,144,4,2,2,4,1,32,10,40,6,2,4,8,1,9,6,2,3,46,13,1,2,198,1,1,3,1,1,201,7,1,6,1,
  1,82,22,2,7,1,2,1,2,122,6,3,1,1,2,1,7,1,1,72,2,3,1,1,1,65,1,281,2,11,2,52,5,5,1,1,1,23,1,5333,17,
  6,15,11464,12,3,3,2496,5,59,7,9,4,508,3,40,2,482,1,63,17,64,2,1,2,13,2,16380,4,1,7,1,2,3230,2,1,4,
  4700,46,2,23,544,3,9,16,2,7,30,4,148,3,1979,55,4,50,8,1,14,1,22,5,1,15,1360,7,1,17,2,7,1,2,1,5,5,
  62,33,1,160,14,368,1,61,4,507,5,254,2,243,1,2,1,7,2,5,1,9,1,464,7,109,8,2735,5,789505,1,30,96,128,
  240]⟩

/-- Capital letters in runs, in ascending order: the first and the last code point of a run, the
distance between its members, and what to add for the small letter. -/
def capitalRuns : List (Nat × Nat × Nat × Int) := [
  (65,90,1,32), (192,214,1,32), (216,222,1,32), (256,302,2,1), (306,310,2,1), (313,327,2,1),
  (330,374,2,1), (376,376,1,-121), (377,381,2,1), (385,385,1,210), (386,388,2,1), (390,390,1,206),
  (391,391,1,1), (393,394,1,205), (395,395,1,1), (398,398,1,79), (399,399,1,202), (400,400,1,203),
  (401,401,1,1), (403,403,1,205), (404,404,1,207), (406,406,1,211), (407,407,1,209), (408,408,1,1),
  (412,412,1,211), (413,413,1,213), (415,415,1,214), (416,420,2,1), (422,422,1,218), (423,423,1,1),
  (425,425,1,218), (428,428,1,1), (430,430,1,218), (431,431,1,1), (433,434,1,217), (435,437,2,1),
  (439,439,1,219), (440,440,1,1), (444,444,1,1), (452,452,1,2), (453,453,1,1), (455,455,1,2),
  (456,456,1,1), (458,458,1,2), (459,475,2,1), (478,494,2,1), (497,497,1,2), (498,500,2,1),
  (502,502,1,-97), (503,503,1,-56), (504,542,2,1), (544,544,1,-130), (546,562,2,1),
  (570,570,1,10795), (571,571,1,1), (573,573,1,-163), (574,574,1,10792), (577,577,1,1),
  (579,579,1,-195), (580,580,1,69), (581,581,1,71), (582,590,2,1), (880,882,2,1), (886,886,1,1),
  (895,895,1,116), (902,902,1,38), (904,906,1,37), (908,908,1,64), (910,911,1,63), (913,929,1,32),
  (931,939,1,32), (975,975,1,8), (984,1006,2,1), (1012,1012,1,-60), (1015,1015,1,1),
  (1017,1017,1,-7), (1018,1018,1,1), (1021,1023,1,-130), (1024,1039,1,80), (1040,1071,1,32),
  (1120,1152,2,1), (1162,1214,2,1), (1216,1216,1,15), (1217,1229,2,1), (1232,1326,2,1),
  (1329,1366,1,48), (4256,4293,1,7264), (4295,4295,1,7264), (4301,4301,1,7264), (5024,5103,1,38864),
  (5104,5109,1,8), (7305,7305,1,1), (7312,7354,1,-3008), (7357,7359,1,-3008), (7680,7828,2,1),
  (7838,7838,1,-7615), (7840,7934,2,1), (7944,7951,1,-8), (7960,7965,1,-8), (7976,7983,1,-8),
  (7992,7999,1,-8), (8008,8013,1,-8), (8025,8031,2,-8), (8040,8047,1,-8), (8072,8079,1,-8),
  (8088,8095,1,-8), (8104,8111,1,-8), (8120,8121,1,-8), (8122,8123,1,-74), (8124,8124,1,-9),
  (8136,8139,1,-86), (8140,8140,1,-9), (8152,8153,1,-8), (8154,8155,1,-100), (8168,8169,1,-8),
  (8170,8171,1,-112), (8172,8172,1,-7), (8184,8185,1,-128), (8186,8187,1,-126), (8188,8188,1,-9),
  (8486,8486,1,-7517), (8490,8490,1,-8383), (8491,8491,1,-8262), (8498,8498,1,28), (8544,8559,1,16),
  (8579,8579,1,1), (9398,9423,1,26), (11264,11311,1,48), (11360,11360,1,1), (11362,11362,1,-10743),
  (11363,11363,1,-3814), (11364,11364,1,-10727), (11367,11371,2,1), (11373,11373,1,-10780),
  (11374,11374,1,-10749), (11375,11375,1,-10783), (11376,11376,1,-10782), (11378,11378,1,1),
  (11381,11381,1,1), (11390,11391,1,-10815), (11392,11490,2,1), (11499,11501,2,1),
  (11506,11506,1,1), (42560,42604,2,1), (42624,42650,2,1), (42786,42798,2,1), (42802,42862,2,1),
  (42873,42875,2,1), (42877,42877,1,-35332), (42878,42886,2,1), (42891,42891,1,1),
  (42893,42893,1,-42280), (42896,42898,2,1), (42902,42920,2,1), (42922,42922,1,-42308),
  (42923,42923,1,-42319), (42924,42924,1,-42315), (42925,42925,1,-42305), (42926,42926,1,-42308),
  (42928,42928,1,-42258), (42929,42929,1,-42282), (42930,42930,1,-42261), (42931,42931,1,928),
  (42932,42946,2,1), (42948,42948,1,-48), (42949,42949,1,-42307), (42950,42950,1,-35384),
  (42951,42953,2,1), (42955,42955,1,-42343), (42956,42970,2,1), (42972,42972,1,-42561),
  (42997,42997,1,1), (65313,65338,1,32), (66560,66599,1,40), (66736,66771,1,40), (66928,66938,1,39),
  (66940,66954,1,39), (66956,66962,1,39), (66964,66965,1,39), (68736,68786,1,64),
  (68944,68965,1,32), (71840,71871,1,32), (93760,93791,1,32), (93856,93880,1,27),
  (125184,125217,1,34)]

/-- What to add to a code point for its small letter, given runs of capital letters in ascending
order. -/
def shiftIn? (code : Nat) : List (Nat × Nat × Nat × Int) → Option Int
  | [] => none
  | (first, last, step, shift) :: runs =>
    if code < first then none
    else if code ≤ last && (code - first) % step == 0 then some shift
    else shiftIn? code runs

/-- The small letter of a single character, or the character itself. -/
def lowerLetter (c : Char) : Char :=
  match shiftIn? c.toNat capitalRuns with
  | some shift => Char.ofNat (c.toNat + shift).toNat
  | none => c

/-- Whether the first character that is not passed over has case. -/
def nextIsCased (text : List Char) : Bool :=
  match text.dropWhile caseIgnorable.contains with
  | [] => false
  | c :: _ => cased.contains c

/-- Lower-cases the rest of a text; `before` holds what stands before it, nearest first. -/
def toLowerFrom (before : List Char) : List Char → List Char
  | [] => []
  | c :: rest =>
    let lowered :=
      if c.toNat = 0x3A3 then
        if nextIsCased before && !nextIsCased rest then [Char.ofNat 0x3C2] else [Char.ofNat 0x3C3]
      else if c.toNat = 0x130 then [Char.ofNat 0x69, Char.ofNat 0x307]
      else [lowerLetter c]
    lowered ++ toLowerFrom (c :: before) rest

def toLower (text : String) : String :=
  String.ofList (toLowerFrom [] text.toList)

end Parcel.Text
