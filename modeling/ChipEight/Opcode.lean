/-!
# Opcodes

The thirty-five forms an instruction word can have. Each has a name under which
reports show it.
-/

namespace ChipEight

/-- The forms of an instruction. In the comments `x` and `y` stand for register
numbers, `n` for a digit, `kk` for a byte and `nnn` for an address. -/
inductive Opcode where
  /-- `00E0`: clear the screen -/
  | clear
  /-- `00EE`: return from a subroutine -/
  | ret
  /-- `0nnn`: a routine of the host hardware, ignored -/
  | sys
  /-- `1nnn`: jump to `nnn` -/
  | jump
  /-- `2nnn`: call the subroutine at `nnn` -/
  | call
  /-- `3xkk`: skip the next instruction if `Vx = kk` -/
  | skipEqByte
  /-- `4xkk`: skip the next instruction if `Vx ≠ kk` -/
  | skipNeByte
  /-- `5xy0`: skip the next instruction if `Vx = Vy` -/
  | skipEqReg
  /-- `6xkk`: `Vx` becomes `kk` -/
  | loadByte
  /-- `7xkk`: add `kk` to `Vx`, without a flag -/
  | addByte
  /-- `8xy0`: `Vx` becomes `Vy` -/
  | loadReg
  /-- `8xy1`: or `Vy` into `Vx` -/
  | or
  /-- `8xy2`: and `Vy` into `Vx` -/
  | and
  /-- `8xy3`: exclusive-or `Vy` into `Vx` -/
  | xor
  /-- `8xy4`: add `Vy` to `Vx`; the flag is 1 when the sum fits in a byte -/
  | add
  /-- `8xy5`: subtract `Vy` from `Vx`; the flag is 1 when nothing is borrowed -/
  | sub
  /-- `8xy6`: shift `Vx` right; the flag is the bit shifted out -/
  | shiftRight
  /-- `8xy7`: `Vx` becomes `Vy - Vx`; the flag is 1 when nothing is borrowed -/
  | subFrom
  /-- `8xyE`: shift `Vx` left; the flag is the top bit in its place -/
  | shiftLeft
  /-- `9xy?`: skip the next instruction if `Vx ≠ Vy`; the last digit is free -/
  | skipNeReg
  /-- `Annn`: `I` becomes `nnn` -/
  | loadIndex
  /-- `Bnnn`: jump to `nnn + V0` -/
  | jumpOffset
  /-- `Cxkk`: `Vx` becomes a random byte masked by `kk` -/
  | random
  /-- `Dxyn`: draw the `n` bytes at `I` as a sprite at `(Vx, Vy)` -/
  | draw
  /-- `Ex9E`: skip the next instruction if the key `Vx` is down -/
  | skipKeyDown
  /-- `ExA1`: skip the next instruction if the key `Vx` is up -/
  | skipKeyUp
  /-- `Fx07`: `Vx` becomes the delay timer -/
  | readDelay
  /-- `Fx0A`: wait for a key and store it in `Vx` -/
  | waitKey
  /-- `Fx15`: the delay timer becomes `Vx` -/
  | setDelay
  /-- `Fx18`: the sound timer becomes `Vx` -/
  | setSound
  /-- `Fx1E`: add `Vx` to `I` -/
  | addIndex
  /-- `Fx29`: `I` becomes the address of the glyph of `Vx` -/
  | glyph
  /-- `Fx33`: store the three decimal digits of `Vx` at `I` -/
  | decimal
  /-- `Fx55`: store `V0` to `Vx` at `I` -/
  | storeRegs
  /-- `Fx65`: load `V0` to `Vx` from `I` -/
  | loadRegs
  deriving DecidableEq, Repr

/-- The name under which reports show an opcode. -/
def Opcode.name : Opcode → String
  | .clear => "CLS"
  | .ret => "RET"
  | .sys => "SYS"
  | .jump => "JP"
  | .call => "CALL"
  | .skipEqByte => "SE_VX_KK"
  | .skipNeByte => "SNE_VX_KK"
  | .skipEqReg => "SE_VX_VY"
  | .loadByte => "LD_VX_KK"
  | .addByte => "ADD_VX_KK"
  | .loadReg => "LD_VX_VY"
  | .or => "OR"
  | .and => "AND"
  | .xor => "XOR"
  | .add => "ADD"
  | .sub => "SUB"
  | .shiftRight => "SHR"
  | .subFrom => "SUBN"
  | .shiftLeft => "SHL"
  | .skipNeReg => "SNE_VX_VY"
  | .loadIndex => "LD_I"
  | .jumpOffset => "JP_V0"
  | .random => "RND"
  | .draw => "DRW"
  | .skipKeyDown => "SKP"
  | .skipKeyUp => "SKNP"
  | .readDelay => "LD_VX_DT"
  | .waitKey => "LD_VX_K"
  | .setDelay => "LD_DT_VX"
  | .setSound => "LD_ST_VX"
  | .addIndex => "ADD_I_VX"
  | .glyph => "LD_F_VX"
  | .decimal => "LD_B_VX"
  | .storeRegs => "LD_I_VX"
  | .loadRegs => "LD_VX_I"

end ChipEight
