import Patchy.Core.RelativeJump

set_option autoImplicit false

namespace Patchy

inductive ReturnType where
  | none
  | rax
  | xmm0
  deriving DecidableEq, Repr

namespace Arch

-- CALL [RIP+2]; JMP +8, ahead of an embedded function pointer.
def callBytes : List Byte := [0xFF, 0x15, 0x02, 0x00, 0x00, 0x00, 0xEB, 0x08]

def alignStack : List Byte := [0x48, 0x83, 0xEC, 0x08]
def unalignStack : List Byte := [0x48, 0x83, 0xC4, 0x08]

def saveRax : List Byte := [0x50]
def saveXmm0 : List Byte := [0xF3, 0x0F, 0x7F, 0x04, 0x24]
def saveRegisters : List Byte := [
  0x51, -- PUSH RCX
  0x52, -- PUSH RDX
  0x41, 0x50, -- PUSH R8
  0x41, 0x51, -- PUSH R9
  0x41, 0x52, -- PUSH R10
  0x41, 0x53, -- PUSH R11
  0x48, 0x83, 0xEC, 0x60, -- SUB RSP, 0x60
  0xF3, 0x0F, 0x7F, 0x4C, 0x24, 0x10, -- MOVDQU [RSP+0x10], XMM1
  0xF3, 0x0F, 0x7F, 0x54, 0x24, 0x20, -- MOVDQU [RSP+0x20], XMM2
  0xF3, 0x0F, 0x7F, 0x5C, 0x24, 0x30, -- MOVDQU [RSP+0x30], XMM3
  0xF3, 0x0F, 0x7F, 0x64, 0x24, 0x40, -- MOVDQU [RSP+0x40], XMM4
  0xF3, 0x0F, 0x7F, 0x6C, 0x24, 0x50] -- MOVDQU [RSP+0x50], XMM5

def loadRax : List Byte := [0x58]
def loadXmm0 : List Byte := [0xF3, 0x0F, 0x6F, 0x04, 0x24]
def loadRegisters : List Byte := [
  0xF3, 0x0F, 0x6F, 0x4C, 0x24, 0x10, -- MOVDQU XMM1, [RSP+0x10]
  0xF3, 0x0F, 0x6F, 0x54, 0x24, 0x20, -- MOVDQU XMM2, [RSP+0x20]
  0xF3, 0x0F, 0x6F, 0x5C, 0x24, 0x30, -- MOVDQU XMM3, [RSP+0x30]
  0xF3, 0x0F, 0x6F, 0x64, 0x24, 0x40, -- MOVDQU XMM4, [RSP+0x40]
  0xF3, 0x0F, 0x6F, 0x6C, 0x24, 0x50, -- MOVDQU XMM5, [RSP+0x50]
  0x48, 0x83, 0xC4, 0x60, -- ADD RSP, 0x60
  0x41, 0x5B, -- POP R11
  0x41, 0x5A, -- POP R10
  0x41, 0x59, -- POP R9
  0x41, 0x58, -- POP R8
  0x5A, -- POP RDX
  0x59] -- POP RCX

def buildCall (function : Nat) (allowReturn : ReturnType) : List Byte :=
  let needsAlignment := allowReturn ≠ .rax
  (if needsAlignment then saveRax else []) ++
  saveRegisters ++
  (if needsAlignment then alignStack else []) ++
  (if allowReturn ≠ .xmm0 then saveXmm0 else []) ++
  callBytes ++
  usizeBytes function ++
  (if allowReturn ≠ .xmm0 then loadXmm0 else []) ++
  (if needsAlignment then unalignStack else []) ++
  loadRegisters ++
  (if needsAlignment then loadRax else [])

def preservedCallEntry : List Byte := [
  0x50, -- PUSH RAX
  0x51, -- PUSH RCX
  0x52, -- PUSH RDX
  0x41, 0x50, -- PUSH R8
  0x41, 0x51, -- PUSH R9
  0x41, 0x52, -- PUSH R10
  0x41, 0x53, -- PUSH R11
  0x48, 0x81, 0xEC, 0x88, 0x00, 0x00, 0x00, -- SUB RSP, 0x88
  0xF3, 0x0F, 0x7F, 0x44, 0x24, 0x20, -- MOVDQU [RSP+0x20], XMM0
  0xF3, 0x0F, 0x7F, 0x4C, 0x24, 0x30, -- MOVDQU [RSP+0x30], XMM1
  0xF3, 0x0F, 0x7F, 0x54, 0x24, 0x40, -- MOVDQU [RSP+0x40], XMM2
  0xF3, 0x0F, 0x7F, 0x5C, 0x24, 0x50, -- MOVDQU [RSP+0x50], XMM3
  0xF3, 0x0F, 0x7F, 0x64, 0x24, 0x60, -- MOVDQU [RSP+0x60], XMM4
  0xF3, 0x0F, 0x7F, 0x6C, 0x24, 0x70] -- MOVDQU [RSP+0x70], XMM5

def preservedCallExit (allowReturn : ReturnType) : List Byte :=
  (if allowReturn ≠ .xmm0 then
    [0xF3, 0x0F, 0x6F, 0x44, 0x24, 0x20] -- MOVDQU XMM0, [RSP+0x20]
  else []) ++
  [0xF3, 0x0F, 0x6F, 0x4C, 0x24, 0x30, -- MOVDQU XMM1, [RSP+0x30]
  0xF3, 0x0F, 0x6F, 0x54, 0x24, 0x40, -- MOVDQU XMM2, [RSP+0x40]
  0xF3, 0x0F, 0x6F, 0x5C, 0x24, 0x50, -- MOVDQU XMM3, [RSP+0x50]
  0xF3, 0x0F, 0x6F, 0x64, 0x24, 0x60, -- MOVDQU XMM4, [RSP+0x60]
  0xF3, 0x0F, 0x6F, 0x6C, 0x24, 0x70, -- MOVDQU XMM5, [RSP+0x70]
  0x48, 0x8D, 0xA4, 0x24, 0x88, 0x00, 0x00, 0x00, -- LEA RSP, [RSP+0x88]
  0x41, 0x5B, -- POP R11
  0x41, 0x5A, -- POP R10
  0x41, 0x59, -- POP R9
  0x41, 0x58, -- POP R8
  0x5A, -- POP RDX
  0x59] ++ -- POP RCX
  (if allowReturn = .rax then
    [0x48, 0x8D, 0x64, 0x24, 0x08] -- LEA RSP, [RSP+8]
  else [0x58]) -- POP RAX

def pushPreservedCall (code : List Byte) (function : Nat) (argumentSetup resultHandling : List Byte)
    (allowReturn : ReturnType) : List Byte :=
  code ++ preservedCallEntry ++ argumentSetup ++ callBytes ++ usizeBytes function ++
    resultHandling ++ preservedCallExit allowReturn

end Arch

end Patchy
