import CodeQuality.Text.Ranges

namespace CodeQuality
namespace Text

/-!
Lower case for every script.

`toLowerChar` maps one character to one character.  `lower` maps a whole text:
it differs from the character map in two places, the capital I with a dot, whose
lower case is two characters, and the capital sigma, which takes its final form
at the end of a word.
-/

/-- A run of capitals at a fixed stride, each with its small letter at the same distance. -/
structure CaseRun where
  first : Nat
  count : Nat
  stride : Nat
  distance : Int

/-- One run of capitals, written as four hexadecimal numbers between commas. -/
def CaseRun.decode (word : List Char) : CaseRun :=
  match fields word with
  | [first, count, stride, distance] =>
      { first := hexValue first, count := hexValue count, stride := hexValue stride,
        distance := match distance with
          | '-' :: digits => -(hexValue digits : Int)
          | digits => (hexValue digits : Int) }
  | _ => ⟨0, 0, 1, 0⟩

/-- The runs of a whole line. -/
def CaseRun.decodeAll (line : String) : Array CaseRun :=
  ((words line.toList).map CaseRun.decode).toArray

/-- The code point of the last capital of a run. -/
def CaseRun.last (run : CaseRun) : Nat := run.first + (run.count - 1) * run.stride

/-- The runs of capitals beyond the ASCII range, in increasing order. -/
def caseRuns : Array CaseRun := CaseRun.decodeAll
  "c0,17,1,20 d8,7,1,20 100,18,2,1 132,3,2,1 139,8,2,1 14a,17,2,1 178,1,1,-79 179,3,2,1
  181,1,1,d2 182,2,2,1 186,1,1,ce 187,1,1,1 189,2,1,cd 18b,1,1,1 18e,1,1,4f 18f,1,1,ca
  190,1,1,cb 191,1,1,1 193,1,1,cd 194,1,1,cf 196,1,1,d3 197,1,1,d1 198,1,1,1 19c,1,1,d3
  19d,1,1,d5 19f,1,1,d6 1a0,3,2,1 1a6,1,1,da 1a7,1,1,1 1a9,1,1,da 1ac,1,1,1 1ae,1,1,da
  1af,1,1,1 1b1,2,1,d9 1b3,2,2,1 1b7,1,1,db 1b8,1,1,1 1bc,1,1,1 1c4,1,1,2 1c5,1,1,1 1c7,1,1,2
  1c8,1,1,1 1ca,1,1,2 1cb,9,2,1 1de,9,2,1 1f1,1,1,2 1f2,2,2,1 1f6,1,1,-61 1f7,1,1,-38
  1f8,14,2,1 220,1,1,-82 222,9,2,1 23a,1,1,2a2b 23b,1,1,1 23d,1,1,-a3 23e,1,1,2a28 241,1,1,1
  243,1,1,-c3 244,1,1,45 245,1,1,47 246,5,2,1 370,2,2,1 376,1,1,1 37f,1,1,74 386,1,1,26
  388,3,1,25 38c,1,1,40 38e,2,1,3f 391,11,1,20 3a3,9,1,20 3cf,1,1,8 3d8,c,2,1 3f4,1,1,-3c
  3f7,1,1,1 3f9,1,1,-7 3fa,1,1,1 3fd,3,1,-82 400,10,1,50 410,20,1,20 460,11,2,1 48a,1b,2,1
  4c0,1,1,f 4c1,7,2,1 4d0,30,2,1 531,26,1,30 10a0,26,1,1c60 10c7,1,1,1c60 10cd,1,1,1c60
  13a0,50,1,97d0 13f0,6,1,8 1c90,2b,1,-bc0 1cbd,3,1,-bc0 1e00,4b,2,1 1e9e,1,1,-1dbf
  1ea0,30,2,1 1f08,8,1,-8 1f18,6,1,-8 1f28,8,1,-8 1f38,8,1,-8 1f48,6,1,-8 1f59,4,2,-8
  1f68,8,1,-8 1f88,8,1,-8 1f98,8,1,-8 1fa8,8,1,-8 1fb8,2,1,-8 1fba,2,1,-4a 1fbc,1,1,-9
  1fc8,4,1,-56 1fcc,1,1,-9 1fd8,2,1,-8 1fda,2,1,-64 1fe8,2,1,-8 1fea,2,1,-70 1fec,1,1,-7
  1ff8,2,1,-80 1ffa,2,1,-7e 1ffc,1,1,-9 2126,1,1,-1d5d 212a,1,1,-20bf 212b,1,1,-2046
  2132,1,1,1c 2160,10,1,10 2183,1,1,1 24b6,1a,1,1a 2c00,30,1,30 2c60,1,1,1 2c62,1,1,-29f7
  2c63,1,1,-ee6 2c64,1,1,-29e7 2c67,3,2,1 2c6d,1,1,-2a1c 2c6e,1,1,-29fd 2c6f,1,1,-2a1f
  2c70,1,1,-2a1e 2c72,1,1,1 2c75,1,1,1 2c7e,2,1,-2a3f 2c80,32,2,1 2ceb,2,2,1 2cf2,1,1,1
  a640,17,2,1 a680,e,2,1 a722,7,2,1 a732,1f,2,1 a779,2,2,1 a77d,1,1,-8a04 a77e,5,2,1
  a78b,1,1,1 a78d,1,1,-a528 a790,2,2,1 a796,a,2,1 a7aa,1,1,-a544 a7ab,1,1,-a54f a7ac,1,1,-a54b
  a7ad,1,1,-a541 a7ae,1,1,-a544 a7b0,1,1,-a512 a7b1,1,1,-a52a a7b2,1,1,-a515 a7b3,1,1,3a0
  a7b4,8,2,1 a7c4,1,1,-30 a7c5,1,1,-a543 a7c6,1,1,-8a38 a7c7,2,2,1 a7d0,1,1,1 a7d6,2,2,1
  a7f5,1,1,1 ff21,1a,1,20 10400,28,1,28 104b0,24,1,28 10570,b,1,27 1057c,f,1,27 1058c,7,1,27
  10594,2,1,27 10c80,33,1,40 118a0,20,1,20 16e40,20,1,20 1e900,22,1,22"


/-- The small letter of a capital, and every other character itself. -/
def toLowerChar (c : Char) : Char :=
  if c.toNat < 128 then
    if 'A' ≤ c ∧ c ≤ 'Z' then Char.ofNat (c.toNat + 32) else c
  else if c.toNat = 0x130 then 'i'
  else
    match bisect? CaseRun.first CaseRun.last caseRuns c.toNat 0 caseRuns.size with
    | none => c
    | some run =>
        if (c.toNat - run.first) % run.stride = 0 then
          Char.ofNat ((c.toNat : Int) + run.distance).toNat
        else c

/-- Characters that have case and end the search for the edge of a word. -/
def casedRanges : Ranges := Ranges.decode
  "41+19 7+19 30 b 5 6+16 2+1e 2+c2 2+3 5+cf 2+1a c1+3 3+1 4+2 2 7 2+2 2 2+13 2+52 2+8a 9+a5
  2+25 a+28 b18+25 2 6 3+2a 3+2 2a1+55 3+5 883+8 8+2a 3+2 41+2b 40+c 2+21 66+115 3+5 3+25 3+5
  3+7 2 2 2 2+1e 3+34 2+6 2 4+2 2+6 4+3 3+5 5+c 6+2 2+6 106 5 3+9 2 4+4 7 2 2 2+3 2+5 5 3+3
  6+4 5 12+1f 4+1 332+33 717+7b 3+66 7+3 4+1 d+25 2 6 7913+2d 13+1b 87+4d 2+16 4+3 2+3a 6+1 2
  2+4 1c+1 4 336+2a 6+8 8+4f 4f41+6 d+4 40a+19 7+19 4a6+4f 61+23 5+23 75+a 2+e 2+6 2+1 2+a 2+e
  2+6 2+1 6c4+32 e+32 bae+3f 5561+3f 6581+54 2+46 2+1 3 3+1 3+3 2+b 2 2+6 2+40 2+3 3+7 2+6
  2+1b 2+3 2+4 2 4+6 2+153 3+18 2+18 2+1e 2+18 2+1e 2+18 2+1e 2+18 2+1e 2+18 2+7 735+9 2+13
  9e2+43 7ed+19 7+19 7+19"

/-- Characters that are passed over in the search for the edge of a word. -/
def caseIgnorableRanges : Ranges := Ranges.decode
  "27 7 c 24 2 48 5 2 5 3+1 1f8+bf 5+1 5 a+1 2 fc+6 d0 6 32+2c 2 2+1 2+1 2 2d c+5 b+a 2 24 b+14
  11 66+7 2+9 2+3 22 2 1f+1a 5c+a 3b+a 5 3 19+17 2c+2 2d 8+1 7+7 2a+39 38 2 5+7 5 4+6 b+1 e 10
  3b 5+3 9 15+1 1b 3+1 3a 5+1 5+1 3+2 4 1f+1 4 c+1 3a 5+4 2+1 5 15+1 17+5 2 3b 3 2+3 9 8+1 c+1
  1f 3e d 33 4 38 2+2 6+2 2+3 8+1 c+1 1e 3b 3 7 6+1 15+1 1d+1 3a+1 5+3 9 15+1 1e 49 8+2 2 5b
  3+6 c+8 63 3+8 a 2+5 4b+1 1c 2 2 38+d 2+4 2+1 6+a 2+23 a 67+3 2+5 2+1 3+1 1a+1 5+2 11+3 e
  3+1 7 10 5f 261+2 3b3+2 1e+1 1f+1 1f+1 41+1 2+6 9 3+a 4 6 2e+4 34 42+1 23 77+2 5+1 a 7+2
  dc+1 3 3b 2+6 2 2 3+7 7+9 3 28 9+1e 32+3 31 2+4 2 6 29+8 d+1 21+3 3+1 2+2 39 2+1 4 2+2 3b+7
  3+1 41+5 53+2 2+c 2+6 5 7 4+1 33+3e e 23+64 1be 2+2 c+2 e+2 e+2 e+1 d+4 9+1 b 3 3+4 32+4 2+9
  2 e 11+c 34+20 b8c+1 72+2 7e 10 61+1f 30 1d6 25+3 4+4 6 5e+5 5e+2 6f17 4e3+5 10f 63+3 2+9 2
  1d+3 51+1 f+21 4f 18+2 68+2 4+1 9 4 5 1a+1 6 98+1 1b+11 e 27+7 1a+a 2f+2 31 3+3 3+1 12 16+1
  43+5 3+1 3+1 d 9 24 c 34 2+2 3+1 6+1 2 1c f+1 6+1 2 65+4 a+2 7a 3 5 4f31 94+10 23e+f 4 d+f
  23 3 aa 8 7 c 24 2 30 2e+1 44 16+2 202 e3 96+4 406+5 2+29 2+8 247+2 2+1 6+3 29+2 5 a6+1
  23e+3 184+1 9a+a 32+3 7c 37+e 2a 3+1 b+2 32+3 3+1 3 5 b 33+2 25+4 2+7 3f d+1 35+8 b+3 3 60+2
  3 2+1 7 a1 4+7 16+1 3a+1 4 26+6 4+4 c4+7 3+2 2 18 55+5 2 5+1 2+1 ef+3 7+1 2+1 1c+1 56+7 3
  2+1 6b 2 3+5 2 66+2 3+3 2+4 104+8 2+1 101+1 2 5 91+3 3+1 5 21+9 29+5 3+3 9 a+5 3+2 2f+c 2+1
  197+6 2+5 2 53+15 3+6 2+1 2+1 7b+5 4 2+1 2+6 2 49+1 4 2 15c+1 153c+8 36b8+4 3c+6 a+3 40c
  40+10 41+1 2+1 400c+3 2+6 2+1 c9f+1 2+3 125d+2d 3+16 221+2 a+f 3+6 1f+3 95+2 7bc+36 5+31 9 f
  17+4 2+e 551+6 2+10 3+6 2+1 2+4 106+d 171 3e+3 5e1+6 6e+7 ab0+4 c0c02 1f+5f 81+ef"

/-- Whether the first character that is not passed over has case. -/
def meetsCased : List Char → Bool
  | [] => false
  | c :: rest =>
      if caseIgnorableRanges.contains c then meetsCased rest else casedRanges.contains c

/-- Lower case of a text, given the characters before it with the nearest first. -/
def lowerAfter (before : List Char) : List Char → List Char
  | [] => []
  | c :: rest =>
      let small :=
        if c.toNat = 0x130 then ['i', Char.ofNat 0x307]
        else if c.toNat = 0x3a3 then
          if meetsCased before && !meetsCased rest then [Char.ofNat 0x3c2] else [Char.ofNat 0x3c3]
        else [toLowerChar c]
      small ++ lowerAfter (c :: before) rest

/-- The lower case of a text. -/
def lower (text : List Char) : List Char := lowerAfter [] text

/-- The lower case of a string. -/
def lowerString (text : String) : String := String.ofList (lower text.toList)

end Text
end CodeQuality
