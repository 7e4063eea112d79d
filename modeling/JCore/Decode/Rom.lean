import Mathlib.Data.BitVec
import Mathlib.Data.List.GetD

/-!
# The microcode

The constant `microcode_rom`: the lines of every instruction in sequence, each
under its instruction's syntax. Lines 0 to 208 belong to instructions, the rest
to system operations; the last two are empty.
-/

namespace JCore

@[irreducible] def microcodeRom : List (BitVec 75) :=
  [
    -- CLRT
    0b000000000100100000001000000000000000000000000000000000001000000000000000000#75,
    -- CLRMAC
    0b000000000100100000001000100000000000000000010000000100000000010000010001000#75,
    -- DIV0U
    0b000000000100100000001000000000000000000000000000000000010000000000000000000#75,
    -- NOP
    0b000000000100100000001000000000000000000000000000000000000000000000000000000#75,
    -- RTE
    0b000000000000000000001000000000000001000001010010001000000000100010000000000#75,
    0b000000000000000000000000000000000001000001010010001000000000100010000000001#75,
    0b000000000000000000000000000000000000000000000100000000000000000000000000010#75,
    0b000000010100110000000000000000000000000000000000000000000000000000000000000#75,
    -- RTS
    0b000000000000000000000000000000000000000000000110000000000000110000000000010#75,
    0b000000010100110000000000000000000000000000000000000000000000000000000000000#75,
    -- SETT
    0b000000000100100000001000000000000000000000000000000000011000000000000000000#75,
    -- SLEEP
    0b000000000000000000000000000000000000000000000000000000000000000000000000000#75,
    0b000000000000000000000000000000000000000100000000000000000000000000000000000#75,
    0b000000000000000000000000000000000000000000000000000000000000000000000000000#75,
    0b000000000100100000001000000000000000000000000000000000000000000000000000000#75,
    -- BGND
    0b000000100100100000001000000000000000000000000000000000000000000000000000000#75,
    -- CMP/PL Rn
    0b000000000100100000011000000000000010000000010000001100100001000000000000000#75,
    -- CMP/PZ Rn
    0b000000000100100000011000000000000010000000010000001100101001000000000000000#75,
    -- DT Rn
    0b000000000100100000101000000000000010001001010010001100110001000000000000000#75,
    -- MOVT Rn
    0b000000000100100000101000000000000000001001100000010000000001010000000000000#75,
    -- ROTL Rn
    0b000000000100100000101000000000000010001001011000010100111001000000000000000#75,
    -- ROTR Rn
    0b000000000100100000111000000000000010001001011000010100111001000000000000000#75,
    -- ROTCL Rn
    0b000000000100100000101000000000000010001001011000011000111001000000000000000#75,
    -- ROTCR Rn
    0b000000000100100000111000000000000010001001011000011000111001000000000000000#75,
    -- SHAL Rn
    0b000000000100100000101000000000000010001001011000011100111001000000000000000#75,
    -- SHAR Rn
    0b000000000100100000111000000000000010001001011000100000111001000000000000000#75,
    -- SHLL Rn
    0b000000000100100000101000000000000010001001011000011100111001000000000000000#75,
    -- SHLR Rn
    0b000000000100100000111000000000000010001001011000011100111001000000000000000#75,
    -- SHLL2 Rn
    0b000000000100100001001000000000000010001001011000011100000001000000000000000#75,
    -- SHLR2 Rn
    0b000000000100100001011000000000000010001001011000011100000001000000000000000#75,
    -- SHLL8 Rn
    0b000000000100100001101000000000000010001001011000011100000001000000000000000#75,
    -- SHLR8 Rn
    0b000000000100100001111000000000000010001001011000011100000001000000000000000#75,
    -- SHLL16 Rn
    0b000000000100100010001000000000000010001001011000011100000001000000000000000#75,
    -- SHLR16 Rn
    0b000000000100100010011000000000000010001001011000011100000001000000000000000#75,
    -- STC SR, Rn
    0b000000000100100000001000010000000000001001000110000000000001010000000000000#75,
    -- STC GBR, Rn
    0b000000000100100000001000010000000000001001000110000000000001100000000000000#75,
    -- STC VBR, Rn
    0b000000000100100000001000010000000000001001000110000000000001110000000000000#75,
    -- STS MACH, Rn
    0b000000000100100000001000110000000000001001000110000000000010000000000000000#75,
    -- STS MACL, Rn
    0b000000000100100000001000110000000000001001000110000000000010010000000000000#75,
    -- STS PR, Rn
    0b000000000100100000001000010000000000001001000110000000000000110000000000000#75,
    -- TAS.B @Rn
    0b000000000000000000000000000010000010000010010000000000000000000100000000000#75,
    0b000000000000000000000000000010000000000000000000000000000000000000000000000#75,
    0b010000000000000000000000000010000010000000011010100100110010100110000000000#75,
    0b000000000100100000001000000000000000000000000000000000000000000000000000000#75,
    -- STC.L SR, @-Rn
    0b000000000000000000000000000101000010001001010010001100000010111000000000000#75,
    0b000000000100100000001000010000000000000000000000000000000000000000000000000#75,
    -- STC.L GBR, @-Rn
    0b000000000000000000000000000101000010001001010010001100000011001000000000000#75,
    0b000000000100100000001000010000000000000000000000000000000000000000000000000#75,
    -- STC.L VBR, @-Rn
    0b000000000000000000000000000101000010001001010010001100000011011000000000000#75,
    0b000000000100100000001000010000000000000000000000000000000000000000000000000#75,
    -- STS.L MACH, @-Rn
    0b000000000100100000001000110101000010001001010010001100000011101000000000000#75,
    -- STS.L MACL, @-Rn
    0b000000000100100000001000110101000010001001010010001100000011111000000000000#75,
    -- STS.L PR, @-Rn
    0b000000000100100000001000010101000010001001010010001100000100001000000000000#75,
    -- STS CP0_COM, Rn
    0b000011000100100000001000000000001000000010000000000000000000000000000000000#75,
    -- CSTS CP0_COM, CP0_Rn
    0b000010000100100000001000000000000000000000000000000000000000000000000000000#75,
    -- STS CPI_COM, Rn
    0b000011000100100000001000000000001000000010000000000000000000000000000000000#75,
    -- CSTS CPI_COM, CPI_Rn
    0b000010000100100000001000000000000000000000000000000000000000000000000000000#75,
    -- LDC Rm, SR
    0b000000000100100000001000010000000000000000000110000001000100010000000000011#75,
    -- LDC, Rm, GBR
    0b000000000100100000001000010000000000010001000110000000000100010000000000000#75,
    -- LDC Rm, VBR
    0b000000000100100000001000010000000000011001000110000000000100010000000000000#75,
    -- LDS Rm, MACH
    0b000000000100100000001000110000000000000000000110000000000100010000100010000#75,
    -- LDS Rm, MACL
    0b000000000100100000001000110000000000000000000110000000000100010000110011000#75,
    -- LDS Rm, PR
    0b000000000100100000001000010000000000100001000110000000000100010000000000000#75,
    -- JMP @Rm
    0b000000000000000000011000000000000010000000010010001000000000100000000000010#75,
    0b000000010100110000000000000000000000000000000000000000000000000000000000000#75,
    -- JSR @Rm
    0b000000000000000000011000000000000010100001010010001000000000100000000000100#75,
    0b000000010100110000000000000000000000000000000000000000000000000000000000000#75,
    -- LDC.L @Rm+, SR
    0b000000000000000000000000000000000010000000010000000000000000000010000000001#75,
    0b000000000000000000000000000000000010001001010010001000000000100000000000000#75,
    0b000000000100100000001000010000000000000000000000000000000000000000000000000#75,
    -- LDC.L @Rm+, GBR
    0b000000000000000000000000000000010010000010010000000000000000000010000000000#75,
    0b000000000000000000000000000000000010001001010010001000000000100000000000000#75,
    0b000000000100100000001000010000000000000000000000000000000000000000000000000#75,
    -- LDC.L @Rm+, VBR
    0b000000000000000000000000000000011010000010010000000000000000000010000000000#75,
    0b000000000000000000000000000000000010001001010010001000000000100000000000000#75,
    0b000000000100100000001000010000000000000000000000000000000000000000000000000#75,
    -- LDS.L @Rm+, MACH
    0b000000000100100000001010110000000010001001010010001000000000100011000100000#75,
    -- LDS.L @Rm+, MACL
    0b000000000100100000001010110000000010001001010010001000000000100011010101000#75,
    -- LDS.L @Rm+, PR
    0b000000000000000000000000010000100010000010010000000000000000000010000000000#75,
    0b000000000100100000001000010000000010001001010010001000000000100000000000000#75,
    -- LDS Rm, CP0_COM
    0b000100000100100000001000010000000000000000000110000000000100010000000000000#75,
    -- CLDS CP0_Rm, CP0_COM
    0b000110000100100000001000010000000000000000000000000000000000000000000000000#75,
    -- LDS Rm, CPI_COM
    0b000100000100100000001000010000000000000000000110000000000100010000000000000#75,
    -- CLDS CPI_Rm, CPI_COM
    0b000110000100100000001000010000000000000000000000000000000000000000000000000#75,
    -- BRAF Rm
    0b000000000000000000001000000000000000000000110010001000000100010000000000010#75,
    0b000000010100110000000000000000000000000000000000000000000000000000000000000#75,
    -- BSRF Rm
    0b000000000000000000001000000000000000100001110010001000000100010000000000100#75,
    0b000000010100110000000000000000000000000000000000000000000000000000000000000#75,
    -- ADD Rm, Rn
    0b000000000100100000001000000000000010001001010010001000000100100000000000000#75,
    -- ADDC Rm, Rn
    0b001000000100100000001000000000000010001001010010001001001100100000000000000#75,
    -- ADDV Rm, Rn
    0b000000000100100000001000000000000010001001010010001001010100100000000000000#75,
    -- AND Rm, Rn
    0b000000000100100000001000000000000010001001010000010000000100100000000000000#75,
    -- CMP /EQ Rm, Rn
    0b000000000100100000001000000000000010000000010000000101011100100000000000000#75,
    -- CMP /HS Rm, Rn
    0b000000000100100000001000000000000010000000010000001101100100100000000000000#75,
    -- CMP /GE Rm, Rn
    0b000000000100100000001000000000000010000000010000001100101100100000000000000#75,
    -- CMP /HI Rm, Rn
    0b000000000100100000001000000000000010000000010000001101101100100000000000000#75,
    -- CMP /GT Rm, Rn
    0b000000000100100000001000000000000010000000010000001100100100100000000000000#75,
    -- CMP /STR Rm, Rn
    0b000000000100100000001000000000000010000000010000000101110100100000000000000#75,
    -- CAS.L Rm, Rn, @R0
    0b000000000000000000000000000000000000101001000110000000000100010000000000000#75,
    0b000000000000000000000000000010001011000010010000000000000000000010000000000#75,
    0b000000000000000000000000000010000010000000010000000101011100100000000000000#75,
    0b000000000100100000001000000011000011000000010000000000000010101010000000000#75,
    -- DIV1 Rm, Rn
    0b100000000100100000001000000000000010001001010010001001111100100000000000000#75,
    -- DIV0S Rm, Rn
    0b000000000100100000001000000000000010000000010000001010000100100000000000000#75,
    -- DMULS.L Rm, Rn
    0b000000000100100000001100100000000010000000010000000000000100100001100110000#75,
    -- DMULU.L Rm, Rn
    0b000000000100100000001100100000000010000000010000000000000100100001100111000#75,
    -- EXTS.B Rm, Rn
    0b000000000100100000001000000000000000001001001010101000000100100000000000000#75,
    -- EXTS.W Rm, Rn
    0b000000000100100000001000000000000000001001001010101100000100100000000000000#75,
    -- EXTU.B Rm, Rn
    0b000000000100100000001000000000000000001001001010110000000100100000000000000#75,
    -- EXTU.W Rm, Rn
    0b000000000100100000001000000000000000001001001010110100000100100000000000000#75,
    -- MOV Rm, Rn
    0b000000000100100000001000000000000000001001000110000000000100100000000000000#75,
    -- MUL.L Rm, Rn
    0b000000000100100000001100100000000010000000010000000000000100100001101000000#75,
    -- MULS.W Rm, Rn
    0b000000000100100000001100100000000010000000010000000000000100100001101001000#75,
    -- MULU.W Rm, Rn
    0b000000000100100000001100100000000010000000010000000000000100100001101010000#75,
    -- NEG Rm, Rn
    0b000000000100100000011000000000000000001001100010001100000100100000000000000#75,
    -- NEGC Rm, Rn
    0b001000000100100000011000000000000000001001100010001101001100100000000000000#75,
    -- NOT Rm, Rn
    0b000000000100100000011000000000000000001001100000111000000100100000000000000#75,
    -- OR Rm, Rn
    0b000000000100100000001000000000000010001001010000111100000100100000000000000#75,
    -- SUB Rm, Rn
    0b000000000100100000001000000000000010001001010010001100000100100000000000000#75,
    -- SUBC Rm, Rn
    0b001000000100100000001000000000000010001001010010001101001100100000000000000#75,
    -- SUBV Rm, Rn
    0b000000000100100000001000000000000010001001010010001101010100100000000000000#75,
    -- SWAP.B Rm, Rn
    0b000000000100100000001000000000000000001001001011000000000100100000000000000#75,
    -- SWAP.W Rm, Rn
    0b000000000100100000001000000000000000001001001011000100000100100000000000000#75,
    -- TST Rm, Rn
    0b000000000100100000001000000000000010000000010000010001011100100000000000000#75,
    -- XOR Rm, Rn
    0b000000000100100000001000000000000010001001010000000100000100100000000000000#75,
    -- XTRACT Rm, Rn
    0b000000000100100000001000000000000010001001011011001000000100100000000000000#75,
    -- SHAD Rm, Rn
    0b000000000100100000001000000000000010001001011000100000000100100000000000000#75,
    -- SHLD Rm, Rn
    0b000000000100100000001000000000000010001001011000011100000100100000000000000#75,
    -- MOV.B Rm, @Rn
    0b000000000100100000011000000101000010000000010010001000000100110110000000000#75,
    -- MOV.W Rm, @Rn
    0b000000000100100000011000000101000010000000010010001000000100111100000000000#75,
    -- MOV.L Rm, @Rn
    0b000000000100100000011000000101000010000000010010001000000100111000000000000#75,
    -- MOV.B @Rm, Rn
    0b000000000100100000001000000100001000000010000110000000000100100100000000000#75,
    -- MOV.W @Rm, Rn
    0b000000000100100000001000000100001000000010000110000000000100101110000000000#75,
    -- MOV.L @Rm, Rn
    0b000000000100100000001000000100001000000010000110000000000100100010000000000#75,
    -- MAC.L @Rm+, @Rn+
    0b000000000000000000000000000000000010001001010010001000000000100011110000000#75,
    0b000000000000000000000111000000000100110001010010001000000000100010001011000#75,
    0b000000000100100000001000000000000000000000000000000000000000000000000000000#75,
    -- MAC.W @Rm+, @Rn+
    0b000000000000000001000000000000000010001001010010001000000000101111110000000#75,
    0b000000000100100001001111000000000100110001010010001000000000101110001100000#75,
    -- MOV.B @Rm+, Rn
    0b000000000000000000100000000000000100110001010010001000000000100000000000000#75,
    0b000000000100100000101000000100001100000010010010001100000000100100000000000#75,
    -- MOV.W @Rm+, Rn
    0b000000000000000001000000000000000100110001010010001000000000100000000000000#75,
    0b000000000100100001001000000100001100000010010010001100000000101110000000000#75,
    -- MOV.L @Rm+, Rn
    0b000000000000000000000000000000000100110001010010001000000000100000000000000#75,
    0b000000000100100000001000000100001100000010010010001100000000100010000000000#75,
    -- MOV.B Rm,@-Rn
    0b000000000100100000101000000101000010001001010010001100000100110110000000000#75,
    -- MOV.W Rm,@-Rn
    0b000000000100100001001000000101000010001001010010001100000100111100000000000#75,
    -- MOV.L Rm,@-Rn
    0b000000000100100000001000000101000010001001010010001100000100111000000000000#75,
    -- MOV.B Rm, @(R0, Rn)
    0b000000000100100000001000000101000010000000010010001000000101000110000000000#75,
    -- MOV.W Rm, @(R0, Rn)
    0b000000000100100000001000000101000010000000010010001000000101001100000000000#75,
    -- MOV.L Rm, @(R0, Rn)
    0b000000000100100000001000000101000010000000010010001000000101001000000000000#75,
    -- MOV.B @(R0, Rm), Rn
    0b000000000100100000001000000100001100000010010010001000000101010100000000000#75,
    -- MOV.W @(R0, Rm), Rn
    0b000000000100100000001000000100001100000010010010001000000101011110000000000#75,
    -- MOV.L @(R0, Rm), Rn
    0b000000000100100000001000000100001100000010010010001000000101010010000000000#75,
    -- MOV.B @(disp, Rm), R0
    0b000000000100100010101000000100101100000010010010001000000000100100000000000#75,
    -- MOV.W @(disp, Rm), R0
    0b000000000100100010111000000100101100000010010010001000000000101110000000000#75,
    -- MOV.B R0, @(disp, Rn)
    0b000000000100100010101000000101000100000000010010001000000101100110000000000#75,
    -- MOV.W R0, @(disp, Rn)
    0b000000000100100010111000000101000100000000010010001000000101101100000000000#75,
    -- MOV.L Rm, @(disp, Rn)
    0b000000000100100011001000000101000010000000010010001000000100111000000000000#75,
    -- MOV.L @(disp, Rm), Rn
    0b000000000100100011001000000100001100000010010010001000000000100010000000000#75,
    -- MOV.B R0, @(disp, GBR)
    0b000000000100100011011000000101000101000000010010001000000101100110000000000#75,
    -- MOV.W R0, @(disp, GBR)
    0b000000000100100011101000000101000101000000010010001000000101101100000000000#75,
    -- MOV.L R0, @(disp, GBR)
    0b000000000100100011111000000101000101000000010010001000000101101000000000000#75,
    -- MOV.B @(disp, GBR), R0
    0b000000000100100011011000000100101101000010010010001000000000100100000000000#75,
    -- MOV.W @(disp, GBR), R0
    0b000000000100100011101000000100101101000010010010001000000000101110000000000#75,
    -- MOV.L @(disp, GBR), R0
    0b000000000100100011111000000100101101000010010010001000000000100010000000000#75,
    -- MOVA @(disp, PC), R0
    0b110000000100100011111000000000000000111001110010001000000001000000000000000#75,
    -- BF label
    0b000000001000100100001000000000000000000000110010001000000001000000000000101#75,
    0b000000000000110000000000000000000000000000000000000000000000000000000000000#75,
    0b000000000100100000001000000000000000000000000000000000000000000000000000000#75,
    -- BF /S label
    0b000000001001000100001000000000000000000000110010001000000001000000000000101#75,
    0b000000010100110000000000000000000000000000000000000000000000000000000000000#75,
    -- BT label
    0b000000001100100100001000000000000000000000110010001000000001000000000000110#75,
    0b000000000000110000000000000000000000000000000000000000000000000000000000000#75,
    0b000000000100100000001000000000000000000000000000000000000000000000000000000#75,
    -- BT /S label
    0b000000001101100100001000000000000000000000110010001000000001000000000000110#75,
    0b000000010100110000000000000000000000000000000000000000000000000000000000000#75,
    -- BRA label
    0b000000000000000100011000000000000000000000110010001000000001000000000000010#75,
    0b000000010100110000000000000000000000000000000000000000000000000000000000000#75,
    -- BSR label
    0b000000000000000100011000000000000000100001110010001000000001000000000000100#75,
    0b000000010100110000000000000000000000000000000000000000000000000000000000000#75,
    -- MOV.W @(disp, PC), Rn
    0b000000000100100011101000000100001000000010110010001000000001001110000000000#75,
    -- MOV.L @(disp, PC), Rn
    0b110000000100100011111000000100001000000010110010001000000001000010000000000#75,
    -- AND.B #imm, @(R0, GBR)
    0b000000000000000000000000000100110101000010010010001000000101110100000000000#75,
    0b000000000000000000000000000000000101101001010010001000000101110000000000000#75,
    0b000000000100100011011000001000000000000000010000010000000110000110000000000#75,
    -- OR.B #imm, @(R0, GBR)
    0b000000000000000000000000000100110101000010010010001000000101110100000000000#75,
    0b000000000000000000000000000000000101101001010010001000000101110000000000000#75,
    0b000000000100100011011000001000000000000000010000111100000110000110000000000#75,
    -- TST.B #imm, @(R0, GBR)
    0b000000000000000000000000000100110101000010010010001000000101110100000000000#75,
    0b000000000000000000000000000000000000000000000000000000000000000000000000000#75,
    0b000000000100100011011000000000000000000000010000010001011000100000000000000#75,
    -- XOR.B #imm, @(R0, GBR)
    0b000000000000000000000000000100110101000010010010001000000101110100000000000#75,
    0b000000000000000000000000000000000101101001010010001000000101110000000000000#75,
    0b000000000100100011011000001000000000000000010000000100000110000110000000000#75,
    -- AND #imm, R0
    0b000000000100100011011000000000000011111001010000010000000001000000000000000#75,
    -- CMP /EQ #imm, R0
    0b000000000100100100101000000000000011000000010000000101011001000000000000000#75,
    -- OR #imm, R0
    0b000000000100100011011000000000000011111001010000111100000001000000000000000#75,
    -- TST #imm, R0
    0b000000000100100011011000000000000011000000010000010001011001000000000000000#75,
    -- XOR #imm, R0
    0b000000000100100011011000000000000011111001010000000100000001000000000000000#75,
    -- TRAPA #imm
    0b000000000000000000000000000101000001000001010010001100000010111000000000000#75,
    0b000000000000000000000000000101000001000001010010001100000110011000000000000#75,
    0b000000000000000011110000000100000000000000100010001000000001110010000000000#75,
    0b000000000000000000000000000000000000000000000000000000000000000000000000000#75,
    0b000000000000000000000000000000000000000000000100000000000000000000000000010#75,
    0b000000000000110000000000000000000000000000000000000000000000000000000000000#75,
    0b000000000100100000001000000000000000000000000000000000000000000000000000000#75,
    -- ADD #imm, Rn
    0b000000000100100100101000000000000010001001010010001000000001000000000000000#75,
    -- MOV #imm, Rn
    0b000000000100100100101000000000000000001001000110000000000001000000000000000#75,
    -- General Illegal
    0b000000000000000001000000000000000000000000110010001100000000100000000000010#75,
    0b000000000000000000000000000101000001000001010010001100000010111000000000000#75,
    0b000000000000000000000000000101000001000001010010001100000110011000000000000#75,
    0b000000000000000011110000000100000000000000100010001000000001110010000000000#75,
    0b000000000000000000000000000000000000000000000000000000000000000000000000000#75,
    0b000000000000000000000000000000000000000000000100000000000000000000000000010#75,
    0b000000000000110000000000000000000000000000000000000000000000000000000000000#75,
    0b000000000100100000001000000000000000000000000000000000000000000000000000000#75,
    -- Slot Illegal
    0b000000000000000000010000000000000000000000110010001000000000100000000000010#75,
    0b000000000000000000000000000101000001000001010010001100000010111000000000000#75,
    0b000000000000000000000000000101000001000001010010001100000110011000000000000#75,
    0b000000000000000011110000000100000000000000100010001000000001110010000000000#75,
    0b000000000000000000000000000000000000000000000000000000000000000000000000000#75,
    0b000000000000000000000000000000000000000000000100000000000000000000000000010#75,
    0b000000000000110000000000000000000000000000000000000000000000000000000000000#75,
    0b000000000100100000001000000000000000000000000000000000000000000000000000000#75,
    -- Reset CPU
    0b000000000000000000000000000000000000000000000000000000000000000000000000000#75,
    0b000000000010000000000000000000000000000000000000000000000000000000000000000#75,
    0b000000000000000011110000000100000000101001000110000000000001000010000000000#75,
    0b000000000000000000000000000100111110000010010010001000000000100010000000000#75,
    0b000000000000000000000000000000000000000000000100000000000000000000000000010#75,
    0b000000000000110000000000000000000000011001010000000100000000010000000000000#75,
    0b000000000100100000001000000000000000000000000000000000000000000000000000000#75,
    -- Interrupt
    0b000000000010001001000000000000000000000000110010001100000000100000000000010#75,
    0b110000000000000000010000000000000001101001010010001000000000100000000000000#75,
    0b000000000000000000000000000101000110101001010010001100000010111000000000000#75,
    0b000000000000000000000000000101000110101001010010001100000110011000000000000#75,
    0b000000000000000011110000000100000111000000010010001000000001000010000000000#75,
    0b000000000000000000000000000000000001000001010010001110001000100000000000000#75,
    0b000000000000000000000000000000000000000000000100000000000000000000000000010#75,
    0b000000000000110000000000000000000001000001010010001100000000100000000000000#75,
    0b000000000100100000001000000000000000000000000000000000000000000000000000000#75,
    -- Error
    0b000000000010001001000000000000000000000000110010001100000000100000000000010#75,
    0b110000000000000000010000000000000001101001010010001000000000100000000000000#75,
    0b000000000000000000000000000101000110101001010010001100000010111000000000000#75,
    0b000000000000000000000000000101000110101001010010001100000110011000000000000#75,
    0b000000000000000011110000000100000111000000010010001000000001000010000000000#75,
    0b000000000000000000000000000000000001000001010010001100000000100000000000000#75,
    0b000000000000000000000000000000000000000000000100000000000000000000000000010#75,
    0b000000000000110000000000000000000001000001010010001100000000100000000000000#75,
    0b000000000100100000001000000000000000000000000000000000000000000000000000000#75,
    -- Break
    0b000000000000000000000000000000000000000000000000000000000000000000000000000#75,
    0b000000100000000001000000000000000000000000110010001100000000100000000000010#75,
    0b000000000000110000000000000000000000000000000000000000000000000000000000000#75,
    0b000000000100100000001000000000000000000000000000000000000000000000000000000#75,
    0b000000000000000000000000000000000000000000000000000000000000000000000000000#75,
    0b000000000000000000000000000000000000000000000000000000000000000000000000000#75
  ]

/-- The line at an address of the microcode memory. -/
def microcodeLine (addr : BitVec 8) : BitVec 75 := microcodeRom.getD addr.toNat 0

/-- A test that every line of the memory passes, and the empty line, is passed by
the line at any address. -/
theorem microcodeLine_forall {p : BitVec 75 → Bool} (lines : (0 :: microcodeRom).all p = true)
    (addr : BitVec 8) : p (microcodeLine addr) = true := by
  rw [List.all_cons, Bool.and_eq_true, List.all_eq_true] at lines
  rw [microcodeLine]
  by_cases h : addr.toNat < microcodeRom.length
  · rw [List.getD_eq_getElem _ _ h]
    exact lines.2 _ (List.getElem_mem h)
  · rw [List.getD_eq_default _ _ (Nat.le_of_not_lt h)]
    exact lines.1

/-- A test that is passed at every address in turn is passed at any. -/
theorem forall_addr {p : BitVec 8 → Bool}
    (test : ((List.range 256).all fun k => p (BitVec.ofNat 8 k)) = true) (addr : BitVec 8) :
    p addr = true := by
  rw [List.all_eq_true] at test
  have at_addr := test addr.toNat (List.mem_range.mpr addr.isLt)
  rwa [BitVec.ofNat_toNat, BitVec.setWidth_eq] at at_addr

end JCore
