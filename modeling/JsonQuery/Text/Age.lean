import JsonQuery.Text.Partition

namespace JsonQuery.Text

-- The versions of Unicode up to 16, the oldest one first, and their codes.
def versions : List (String × String) := [
  ("1.1", "A"), ("2.0", "B"), ("2.1", "C"), ("3.0", "D"), ("3.1", "E"), ("3.2", "F"), ("4.0", "G"),
  ("4.1", "H"), ("5.0", "I"), ("5.1", "J"), ("5.2", "K"), ("6.0", "L"), ("6.1", "M"), ("6.2", "N"),
  ("6.3", "O"), ("7.0", "P"), ("8.0", "Q"), ("9.0", "R"), ("10.0", "S"), ("11.0", "T"),
  ("12.0", "U"), ("12.1", "V"), ("13.0", "W"), ("14.0", "X"), ("15.0", "Y"), ("15.1", "Z"),
  ("16.0", "a")]

-- The versions that have assigned the code points. Those that are not assigned have the code z.
def ageRuns : List String := [
  "A502 D4 A30 D8 F G D18 G3 H11 I14 A89 D5 G2 A47 D A10 D5 G17 A70 D9 F G8 H5 G3 A2 D F13 J4 A2",
  "J2 z2 A I3 A P z4 A7 z A z A20 z A44 J A7 D F2 A D A D A D A D A18 E2 F G5 H4 D A12 D A66 D",
  "A12 D A41 J D2 F2 D4 A53 F2 A2 F2 A2 F2 I A28 D2 A8 H2 A2 I6 F16 I4 J16 K2 L2 P8 z A38 z2 A7 T",
  "A39 T A D z2 P2 M z B17 H B13 A10 I A9 B H3 z8 A27 z4 T A5 z11 G4 M P J5 H A G9 J5 A O X H A L",
  "A26 J5 A19 D3 G3 H6 L A14 F2 A72 D2 A5 D A15 D A30 G2 A10 D5 G D14 z D30 G3 D27 z2 G3 H30 J18",
  "D49 F z14 I59 z2 T3 K46 z2 K15 z L28 z2 L z S11 z5 X31 z X2 z5 a X8 M P M11 P6 Q2 X R8 W10 X11",
  "T R15 Q M27 P K A3 G A53 L2 A18 K L A5 K L2 A25 J2 L5 P K2 I2 H I2 P A3 z A8 z2 A2 z2 A22 z A7",
  "z A z3 A4 z2 A G A7 z2 A2 z2 A3 H z8 A z4 A2 z A5 z2 A21 K S2 T z2 G A G z A6 z4 A2 z2 A22 z",
  "A7 z A2 z A2 z A2 z2 A z A5 z4 A2 z2 A3 z3 J z7 A4 z A z7 A15 J T z10 A3 z A7 G A z A3 z A22 z",
  "A7 z A2 z A5 z2 A10 z A3 z A3 z2 A z15 A G3 z2 A10 M G z7 Q S6 z A3 z A8 z2 A2 z2 A22 z A7 z",
  "A2 z G A4 z2 A8 J z2 A2 z2 A3 z7 W A2 z4 A2 z A3 J2 z2 A11 G L6 z10 A2 z A6 z3 A3 z A4 z3 A2 z",
  "A z A2 z3 A2 z3 A3 z3 A8 H A3 z4 A5 z3 A3 z A4 z2 J z6 A z14 H A12 G8 z5 P A3 T A8 z A3 z A23",
  "z A10 P A5 z2 X J A7 z A3 z A4 z7 A2 z J2 Q z2 X z2 A2 J2 z2 A10 z7 U J8 R P A2 T A8 z A3 z",
  "A23 z A10 z A5 z2 G2 A7 z A3 z A4 z7 A2 z6 X A z A2 I2 z2 A10 z I2 Y z12 S P A2 W A8 z A3 z",
  "A23 L A16 L S2 J A6 J z A3 z A4 L R z4 R3 A R7 Q A2 J2 z2 A10 J6 R3 J7 z W D2 z D18 z3 D24 z",
  "D9 z D z2 D7 z3 D z4 D6 z D z D8 z6 P10 z2 D3 z12 A58 z4 A29 z37 A2 z A z U A2 U A z U A U6 A4",
  "U A7 U A3 z A z A U2 A2 U A13 U A3 z2 A5 z A z A6 Y z A10 z2 A2 M2 z32 B72 z B33 D J2 z4 B27",
  "L4 B6 D B z B21 D3 B7 D B D3 z D15 z J D H2 J3 K4 L2 z37 D34 J D5 J D2 J D7 J3 D4 J6 D26 J64",
  "K4 J2 A38 z M z5 M z2 A39 F2 H2 A H M3 A90 K5 A68 K5 A82 K6 D7 H D63 H D z D4 z2 D7 z D z D4",
  "z2 D39 H D z D4 z2 D31 H D z D4 z2 D7 z D z D4 z2 D7 H D7 z D23 H D31 H D z D4 z2 D7 H D39 H",
  "D19 z2 L2 H2 D28 z3 H26 z6 D85 Q z2 Q6 z2 K D630 K9 D29 z3 D81 P8 z7 F13 X F7 X z9 X F23 z9",
  "F20 z12 F13 z F3 z F2 z12 D93 G z2 D10 z6 G10 z6 D15 X D10 z6 D88 T z7 D42 J z5 K70 z10 G29 P2",
  "z G12 z4 G12 z4 G z3 G42 z2 G5 z11 H42 K2 z4 H26 z6 H10 K z3 H2 G32 H28 z2 H2 K63 z K29 z2 K11",
  "z6 K10 z6 K14 z2 P15 W2 X14 z49 I76 X z a2 I45 X2 a J43 M3 J12 M6 L52 z8 L4 J56 z3 J15 z3 J51",
  "R9 a2 z5 T43 z2 T3 M8 z8 K35 M4 S P2 U z5 G108 H88 I7 J28 P15 S4 X R L K I2 A155 B J4 A90 J6",
  "A22 z2 A6 z2 A38 z2 A6 z2 A8 z A z A z A z A31 z2 A53 z A15 z A14 z2 A6 z A19 z2 A3 z A9 z A47",
  "D A23 F D6 F5 G2 H2 F H7 F5 J z O4 A7 F z2 A27 z H5 L8 z3 A11 B C D3 F2 H4 K3 L N P3 Q S X z15",
  "A18 D2 F7 H I4 J z15 A57 D2 G H F15 H I2 J K3 A48 D I J4 K Q2 z4 A91 D9 F12 A242 F14 A D A121",
  "D F D30 F52 G2 H11 I12 K L11 P7 R4 S A37 D2 a3 z22 A11 z21 A139 F20 G A150 F10 A80 D8 F8 A20",
  "G2 F2 H D A86 D2 F12 H2 F10 G8 H11 J K2 G2 H16 I J10 K3 J4 K10 L K19 L K L4 K24 P A4 L A4 L2",
  "A28 L A35 L A L A4 L3 A K A7 L2 A7 F14 A31 L3 A24 L A14 L H7 I4 M J M L2 F28 J4 F16 D256 F512",
  "G14 H6 I7 J5 I4 J41 P3 J5 K5 P26 z2 P32 z W P34 T3 P12 U P8 S T25 Q4 T15 U H47 X H47 X I13 J3",
  "K J3 I4 J6 K2 H107 K7 M2 z5 H45 z M z5 M z2 H54 M2 z7 H L z14 L H23 z9 H7 z H7 z H7 z H7 z H7",
  "z H7 z H7 z H7 z J32 H24 J4 H2 J19 K M10 P7 R2 S5 T5 U W3 X11 z34 D26 z D89 z12 D214 z26 D12",
  "Z4 A56 D3 F3 D A z A84 F2 z2 A6 F2 A94 F z5 A40 J S T z A94 z A16 D24 L3 W5 H16 J20 a2 z9 Z",
  "F16 A29 G2 z A36 K12 G F15 A28 G2 H A50 F15 A12 G4 A47 V A119 G4 A99 G2 A31 G D6582 W10 G64",
  "A20902 H22 J8 K8 M Q9 S21 T5 W13 X3 D1165 z3 D18 F2 D16 F D12 F D3 F D z9 K48 J300 z20 J32 L2",
  "J18 M8 J28 P6 Q M K88 z8 H23 I4 J5 I2 J107 L2 Q L2 M2 P12 L10 M P3 R T P2 Q6 T2 U6 X2 U5 W4 a3",
  "z2 X2 z X z X5 a3 z21 X3 W2 P M2 L J5 H44 W z3 K10 z6 I56 z8 J69 R z8 J12 z6 K28 Q2 T2 J84 z11",
  "J K29 z3 K78 z K11 z4 K2 P31 z J55 z9 J14 z2 J10 z2 J4 K28 P4 K67 z24 K5 M23 z10 L6 z2 L6 z2",
  "L6 z9 L7 z L7 z P48 Q4 P2 U2 W4 z4 Q80 K46 z2 K10 z6 B11172 z12 K23 z4 K49 z4 B2048 A6702 M2",
  "F59 K3 z2 H106 z38 A7 z12 A5 z5 D A25 z A5 z A z A2 z A2 z A108 L16 X z16 A365 X16 A64 z2 A54",
  "z7 X E32 A12 F G X2 F16 H10 z6 A4 J3 P7 Q2 A21 F2 G2 A10 z A19 z A4 z4 A3 F A z A135 z2 A z",
  "A94 F2 A94 z3 A6 z2 A6 z2 A6 z2 A3 z3 A7 z A7 z10 D3 C A3 G12 z G26 z G19 z G2 z G15 z2 G14",
  "z34 G123 z5 G3 z4 G45 z3 G9 H75 P2 R2 z J12 W z3 P z47 J46 z130 J29 z3 J49 z15 P28 z4 E31 P E4",
  "z9 S3 E27 z5 P43 z5 G30 z G H36 z4 H14 z42 E38 G2 E38 G80 z2 G10 z6 R36 z4 R36 z4 P40 z8 P52",
  "z11 P X11 z X15 z X7 z X2 z X11 z X15 z X7 z X2 z3 a52 z12 P311 z9 P22 z10 P8 z24 X6 z X42 z",
  "X9 z69 G6 z2 G z G44 z G2 z3 G z2 G K22 z K9 P63 z8 P9 z48 Q19 z Q2 z5 Q5 I26 K2 z3 I J26 z5 J",
  "z64 M56 z4 Q2 M2 Q16 z2 Q46 H4 z H2 z5 H8 z H3 z H27 T2 z2 H3 z4 H9 T z7 H9 z7 K32 P32 z32 P39",
  "z4 P12 z9 K54 z3 K29 z2 K27 z5 K8 P18 z7 P4 z12 P7 z80 K73 z55 Q51 z13 Q51 z7 Q6 T40 z8 T10 z6",
  "a38 z3 a29 z8 a2 z208 K31 z W42 z W3 z2 W2 z16 a3 z55 a Y3 T40 z8 T42 z22 X26 z38 W28 z20 U23",
  "z9 L78 z4 L30 X6 z9 P K66 X z10 T z2 M25 z7 M10 z6 M53 z M14 T3 W z8 P39 z9 M73 Q4 P W2 M10 P",
  "Q5 z P20 z11 P18 z P43 R Y3 z62 Q7 z Q z Q4 z Q15 z Q11 z6 P59 z5 P10 z6 Q P3 z P8 z2 P2 z2",
  "P22 z P7 z P2 z P5 z T P9 z2 P2 z2 P3 z2 Q z6 P z5 P7 z2 P7 z3 P5 z11 a10 z a z2 a z a38 z a10",
  "z a z2 a z a4 z a10 z a2 z8 a2 z29 R90 W R z R T U W2 z30 P72 z8 P10 z166 P54 z2 P18 Q20 z34",
  "P69 z11 P10 z6 R13 z19 M56 U X z6 M10 z6 a20 z28 Q26 T z2 Q15 z4 Q16 X7 z185 T60 z100 P83 z12",
  "P W7 z2 W z2 W8 z W2 z W30 z W2 z2 W12 z9 W10 z70 U8 z2 U46 z2 U11 z27 S72 z8 S52 U2 S23 T S5",
  "z13 X16 P57 z7 Y10 z182 a34 z14 a10 z6 R9 z R45 z R14 z10 R29 z3 R32 z2 R22 z R14 z73 S7 z S2",
  "z S44 z3 S z S2 z S9 z8 S10 z6 T6 z T2 z T37 z T2 z T6 z7 T10 z310 T25 z7 Y17 z Y41 z3 Y28 a",
  "z85 W z15 U50 z13 U I879 P42 Q z102 I99 P12 z I4 P z11 Q196 z2636 X99 z13 K1071 Y U9 Y29 z10",
  "a3995 z5 Q583 z6841 a58 z1734 L569 z7 P31 z P10 z4 P2 X79 z X10 z6 P30 z2 P6 z10 P70 z10 P10 z",
  "P7 z P21 z5 P19 z432 a58 z198 T91 z101 M69 U6 z4 U M47 U9 z7 M17 z64 R S U2 W z11 W2 z14 R6125",
  "T5 U6 z8 R755 W483 z41 a W9 z8935 X4 z X7 z X2 z L2 S285 X4 z15 Y z29 U3 z2 Y z14 U4 z8 S396",
  "z2308 P107 z5 P13 z3 P9 z7 P10 z2 P8 z3932 a250 z6 a436 z76 X46 z2 X23 z9 X116 z60 E246 z10",
  "E39 z2 J E180 Q11 X2 z21 H70 z122 Y20 z12 T20 z12 G87 z9 I18 T7 z135 E85 z E71 z E2 z2 E z2 E2",
  "z2 E4 z E12 z E z E4 G E2 z E65 z E4 z2 E8 z E7 z E28 z E4 z E5 z E z3 E7 z E338 H2 z2 E290 I2",
  "z2 E50 Q652 z15 Q5 z Q15 z1104 X31 z6 Y6 z213 R7 z R17 z2 R7 z R2 z R5 z5 Y62 z33 Y z112 U45",
  "z3 U14 z2 U10 z4 U2 z320 X31 z17 U58 z5 U z464 Y42 z214 a43 z4 a z480 X7 z X4 z X2 z X15 z",
  "P197 z2 P16 z41 R75 U z4 R10 z4 R2 z785 T68 z76 U61 z194 M4 z M27 z M2 z M z2 M z M10 z M4 z M",
  "z M z6 M z4 M z M z M z M3 z M2 z M z2 M z M z M z M z M z M2 z M z2 M4 z M7 z M4 z M4 z M z",
  "M10 z M17 z5 M3 z M5 z M17 z52 M2 z270 J44 z4 J100 z12 L15 z2 L14 P z L15 z L15 P22 z10 K11 P2",
  "W3 K31 T L K L11 K L K L2 K L3 K L3 K5 L8 K L7 K L10 M2 U W3 L9 K L K2 L2 K L10 K4 L2 K L10",
  "R18 W z56 L26 K L2 z13 K34 L9 R z4 K9 z7 L2 z14 S6 z154 L33 P12 Q3 L6 P L70 P Q2 L20 P12 L37 P",
  "L5 P4 Q5 P12 L17 P7 Q8 L63 P L P L182 P L4 P2 Q L62 P2 M4 P7 Q5 L24 P18 R P41 R P86 L5 M L16 M",
  "L3 M L M L M L M L3 M L6 M2 L4 M L M2 L4 M L12 P2 Q2 L11 P48 L70 P10 Q R2 S2 U W2 z4 Y X3 P13",
  "z3 P4 R3 S2 T U W2 z3 L116 Y3 z4 Y5 P85 T4 Y z6 U12 z4 X z15 P12 z4 P56 z8 P10 z6 P40 z8 P30",
  "z2 W2 a10 z4 a2 z62 S12 W U3 Q9 R6 S R8 S8 R S2 R12 U R12 S T3 R15 S13 T5 U W T4 W2 X T U T4",
  "Q5 R13 S6 T11 W2 U6 W3 U2 T10 U6 Q T2 U8 W X U3 S23 T25 U84 z12 T14 z2 U4 W Y3 U3 X2 z3 U3 W4",
  "Y2 a z5 a U6 W19 X4 Y3 W7 X4 Y3 a Y W3 X3 a z7 Y2 W7 X3 Y2 a z2 a X8 Y a z6 X7 Y2 z7 W147 z",
  "W55 a37 W10 z1028 B2 E42711 W7 X2 z32 K4149 X4 Y z6 L222 z2 Q5762 z14 S7473 z15 Z622 z2466",
  "E542 z1504 B2 W4939 z5 Y4192 z56398 B2 z65534 B2 z65534 B2 z65534 B2 z65534 B2 z65534 B2",
  "z65534 B2 z65534 B2 z65534 B2 z65534 B2 z65534 B2 z E z30 E96 z128 G240 z65038 B131074"]

def agePartition : Partition := Partition.read ageRuns

-- The code points that were assigned by the versions with these codes.
def ageRanges (codes : List String) : List (Nat × Nat) :=
  Partition.ranges (codes.contains ·) agePartition

end JsonQuery.Text
