import AsmLens.Category

/-!
The reserved words. Four sorted tables give the mnemonics, the registers, the sizes and the
directives of the assembly language; a word is looked up in them by halving. No word stands in two
tables, so the order in which they are tried decides nothing, and a word of none of them may be a
label.
-/

namespace AsmLens

/-- A table of reserved words. -/
inductive Vocabulary where
  | mnemonics
  | registers
  | sizeWords
  | directives
  deriving DecidableEq, Repr

namespace Vocabulary

/-- Statement mnemonics, in byte order. -/
def mnemonicTable : Array String :=
  #[
    "adc", "add", "and", "bsf", "bsr", "bswap", "bt", "btc", "btr", "bts", "call", "cbw",
    "cdq", "cdqe", "clc", "cld", "cli", "cmc", "cmova", "cmovae", "cmovb", "cmovbe", "cmove",
    "cmovg", "cmovge", "cmovl", "cmovle", "cmovne", "cmp", "cmpsb", "cmpsd", "cmpsw",
    "cmpxchg", "cpuid", "cqo", "cwd", "cwde", "dec", "div", "enter", "hlt", "idiv", "imul",
    "in", "inc", "int", "int3", "into", "iret", "iretq", "ja", "jae", "jb", "jbe", "jc",
    "jcxz", "je", "jecxz", "jg", "jge", "jl", "jle", "jmp", "jna", "jnae", "jnb", "jnbe",
    "jnc", "jne", "jng", "jnge", "jnl", "jnle", "jno", "jnp", "jns", "jnz", "jo", "jp", "jpe",
    "jpo", "jrcxz", "js", "jz", "lahf", "lea", "leave", "lock", "lodsb", "lodsd", "lodsq",
    "lodsw", "loop", "loope", "loopne", "loopnz", "loopz", "mov", "movsb", "movsd", "movsq",
    "movsw", "movsx", "movsxd", "movzx", "mul", "neg", "nop", "not", "or", "out", "pause",
    "pop", "popa", "popf", "popfq", "push", "pusha", "pushf", "pushfq", "rcl", "rcr", "rdtsc",
    "rep", "repe", "repne", "repnz", "repz", "ret", "retf", "retn", "rol", "ror", "sahf",
    "sal", "sar", "sbb", "scasb", "scasd", "scasq", "scasw", "seta", "setae", "setb", "setbe",
    "sete", "setg", "setge", "setl", "setle", "setne", "setnz", "setz", "shl", "shld", "shr",
    "shrd", "stc", "std", "sti", "stosb", "stosd", "stosq", "stosw", "sub", "syscall",
    "sysenter", "sysexit", "sysret", "test", "ud2", "xadd", "xchg", "xlat", "xor"]

/-- General purpose, segment, control and vector registers, in byte order. -/
def registerTable : Array String :=
  #[
    "ah", "al", "ax", "bh", "bl", "bp", "bpl", "bx", "ch", "cl", "cr0", "cr2", "cr3", "cr4",
    "cs", "cx", "dh", "di", "dil", "dl", "ds", "dx", "eax", "ebp", "ebx", "ecx", "edi", "edx",
    "eip", "es", "esi", "esp", "fs", "gs", "ip", "r10", "r10b", "r10d", "r10w", "r11", "r11b",
    "r11d", "r11w", "r12", "r12b", "r12d", "r12w", "r13", "r13b", "r13d", "r13w", "r14",
    "r14b", "r14d", "r14w", "r15", "r15b", "r15d", "r15w", "r8", "r8b", "r8d", "r8w", "r9",
    "r9b", "r9d", "r9w", "rax", "rbp", "rbx", "rcx", "rdi", "rdx", "rip", "rsi", "rsp", "si",
    "sil", "sp", "spl", "ss", "xmm0", "xmm1", "xmm10", "xmm11", "xmm12", "xmm13", "xmm14",
    "xmm15", "xmm2", "xmm3", "xmm4", "xmm5", "xmm6", "xmm7", "xmm8", "xmm9"]

/-- Operand sizes and distances, in byte order. -/
def sizeWordTable : Array String :=
  #[
    "byte", "dword", "far", "near", "oword", "ptr", "qword", "short", "tword", "word",
    "yword", "zword"]

/-- Assembler directives and data declarations, in byte order. -/
def directiveTable : Array String :=
  #[
    "absolute", "align", "alignb", "at", "bits", "common", "cpu", "db", "dd", "default", "dq",
    "dt", "dw", "endstruc", "equ", "extern", "global", "iend", "incbin", "istruc", "org",
    "resb", "resd", "resq", "rest", "resw", "section", "segment", "struc", "times", "use16",
    "use32", "use64"]

/-- Every vocabulary, in the order in which a word is looked up. -/
def all : List Vocabulary := [mnemonics, registers, sizeWords, directives]

/-- The words of a vocabulary, in byte order. -/
def table : Vocabulary → Array String
  | mnemonics => mnemonicTable
  | registers => registerTable
  | sizeWords => sizeWordTable
  | directives => directiveTable

/-- The category of a vocabulary's words. -/
def category : Vocabulary → Category
  | mnemonics => .keyword
  | registers => .register
  | sizeWords => .sizeWord
  | directives => .directive

/-- Whether `word` stands in a sorted table at a place from `lo` on and before `hi`: the middle
entry tells which half to search. -/
def search (table : Array String) (word : String) (lo hi : Nat) : Bool :=
  if lo < hi then
    match table[lo + (hi - lo) / 2]? with
    | none => false
    | some entry =>
        if entry = word then true
        else if entry < word then search table word (lo + (hi - lo) / 2 + 1) hi
        else search table word lo (lo + (hi - lo) / 2)
  else false
termination_by hi - lo

/-- Whether a vocabulary holds a word. -/
def contains (v : Vocabulary) (word : String) : Bool := search v.table word 0 v.table.size

/-- The category of a word: that of its vocabulary, or `unknown`. -/
def categoryOf (word : String) : Category :=
  match all.find? (·.contains word) with
  | some v => v.category
  | none => .unknown

end Vocabulary

end AsmLens
