import SubstitutionAutomata.Render.Image

/-! Animations as GIF files. Pixels are coded in three bits each, and the code table is cleared
after every two pixels, so that it never grows. -/

namespace SubstitutionAutomata.Gif

def littleEndian (n : Nat) : List UInt8 := [n.toUInt8, (n / 256).toUInt8]

def clearCode : Nat := 4

def endCode : Nat := 5

/-- The codes of an image: one for each pixel, white or dark. -/
def pixelCodes : List Nat → List Nat
  | [] => [endCode]
  | [a] => [clearCode, a, endCode]
  | a :: b :: rest => clearCode :: a :: b :: pixelCodes rest

/-- Packs codes of three bits from the low end of each byte on; `held` holds the `bits` bits that do
not yet fill a byte. -/
def packCodes (held bits : Nat) : List Nat → List UInt8
  | [] => if bits = 0 then [] else [held.toUInt8]
  | code :: rest =>
    let held := held + code * 2 ^ bits
    if bits + 3 < 8 then packCodes held (bits + 3) rest
    else held.toUInt8 :: packCodes (held / 256) (bits + 3 - 8) rest

/-- Cuts bytes into blocks of at most 255, each after its length, with an empty block at the end. -/
def blocks (bytes : List UInt8) : List UInt8 :=
  match bytes with
  | [] => [0]
  | b :: rest =>
    let block := b :: rest.take 254
    block.length.toUInt8 :: block ++ blocks (rest.drop 254)
  termination_by bytes.length

/-- The entry of a grey level in the colour table. -/
def colour (level : Nat) : Nat := if level = Image.liveLevel then 1 else 0

def colourTable : List UInt8 :=
  [Image.deadLevel, Image.liveLevel, 0, 0].flatMap fun level => List.replicate 3 level.toUInt8

/-- How long each frame is shown, in hundredths of a second. -/
def frameTime : Nat := 10

def frame (i : Image) : List UInt8 :=
  [0x21, 0xf9, 4, 0] ++ littleEndian frameTime ++ [0, 0, 0x2c, 0, 0, 0, 0] ++
    littleEndian i.width ++ littleEndian i.height ++ [0, 2] ++
    blocks (packCodes 0 0 (pixelCodes (i.rows.flatten.map colour)))

/-- Asks for an animation without end. -/
def loopBlock : List UInt8 :=
  [0x21, 0xff, 11] ++ "ANIMEXTS1.0".toUTF8.toList ++ [3, 1, 0, 0, 0]

def encode (frames : List Image) : List UInt8 :=
  let (width, height) := match frames with
    | i :: _ => (i.width, i.height)
    | [] => (0, 0)
  "GIF89a".toUTF8.toList ++ littleEndian width ++ littleEndian height ++ [0xf1, 0, 0] ++
    colourTable ++ loopBlock ++ frames.flatMap frame ++ [0x3b]

end SubstitutionAutomata.Gif
