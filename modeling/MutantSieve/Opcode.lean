import MutantSieve.Text.Blank
import MutantSieve.Text.Letters

/-!
# Opcodes

The operations that instructions carry, with their mnemonics, codes and categories.
-/

set_option autoImplicit false

namespace MutantSieve

inductive Opcode where
  | nop | aconstNull
  | iconstM1 | iconst0 | iconst1 | iconst2 | iconst3 | iconst4 | iconst5
  | lconst0 | lconst1 | fconst0 | fconst1 | fconst2 | dconst0 | dconst1
  | bipush | sipush | ldc
  | iload | lload | fload | dload | aload
  | istore | lstore | fstore | dstore | astore
  | pop | dup | iadd | isub | imul | ineg
  | ifeq | ifne | ifIcmpeq | ifIcmpne | goto
  | ireturn | lreturn | freturn | dreturn | areturn | «return»
  | getstatic | putstatic | getfield | putfield
  | invokevirtual | invokespecial | invokestatic | invokeinterface
  | new | athrow | checkcast | «instanceof» | ifnull | ifnonnull
  deriving DecidableEq, Repr, Inhabited

namespace Opcode

def all : List Opcode :=
  [nop, aconstNull, iconstM1, iconst0, iconst1, iconst2, iconst3, iconst4, iconst5, lconst0,
   lconst1, fconst0, fconst1, fconst2, dconst0, dconst1, bipush, sipush, ldc, iload, lload, fload,
   dload, aload, istore, lstore, fstore, dstore, astore, pop, dup, iadd, isub, imul, ineg, ifeq,
   ifne, ifIcmpeq, ifIcmpne, goto, ireturn, lreturn, freturn, dreturn, areturn, «return»,
   getstatic, putstatic, getfield, putfield, invokevirtual, invokespecial, invokestatic,
   invokeinterface, new, athrow, checkcast, «instanceof», ifnull, ifnonnull]

def mnemonic : Opcode → String
  | nop => "NOP"
  | aconstNull => "ACONST_NULL"
  | iconstM1 => "ICONST_M1"
  | iconst0 => "ICONST_0"
  | iconst1 => "ICONST_1"
  | iconst2 => "ICONST_2"
  | iconst3 => "ICONST_3"
  | iconst4 => "ICONST_4"
  | iconst5 => "ICONST_5"
  | lconst0 => "LCONST_0"
  | lconst1 => "LCONST_1"
  | fconst0 => "FCONST_0"
  | fconst1 => "FCONST_1"
  | fconst2 => "FCONST_2"
  | dconst0 => "DCONST_0"
  | dconst1 => "DCONST_1"
  | bipush => "BIPUSH"
  | sipush => "SIPUSH"
  | ldc => "LDC"
  | iload => "ILOAD"
  | lload => "LLOAD"
  | fload => "FLOAD"
  | dload => "DLOAD"
  | aload => "ALOAD"
  | istore => "ISTORE"
  | lstore => "LSTORE"
  | fstore => "FSTORE"
  | dstore => "DSTORE"
  | astore => "ASTORE"
  | pop => "POP"
  | dup => "DUP"
  | iadd => "IADD"
  | isub => "ISUB"
  | imul => "IMUL"
  | ineg => "INEG"
  | ifeq => "IFEQ"
  | ifne => "IFNE"
  | ifIcmpeq => "IF_ICMPEQ"
  | ifIcmpne => "IF_ICMPNE"
  | goto => "GOTO"
  | ireturn => "IRETURN"
  | lreturn => "LRETURN"
  | freturn => "FRETURN"
  | dreturn => "DRETURN"
  | areturn => "ARETURN"
  | «return» => "RETURN"
  | getstatic => "GETSTATIC"
  | putstatic => "PUTSTATIC"
  | getfield => "GETFIELD"
  | putfield => "PUTFIELD"
  | invokevirtual => "INVOKEVIRTUAL"
  | invokespecial => "INVOKESPECIAL"
  | invokestatic => "INVOKESTATIC"
  | invokeinterface => "INVOKEINTERFACE"
  | new => "NEW"
  | athrow => "ATHROW"
  | checkcast => "CHECKCAST"
  | «instanceof» => "INSTANCEOF"
  | ifnull => "IFNULL"
  | ifnonnull => "IFNONNULL"

def code : Opcode → Nat
  | nop => 0
  | aconstNull => 1
  | iconstM1 => 2
  | iconst0 => 3
  | iconst1 => 4
  | iconst2 => 5
  | iconst3 => 6
  | iconst4 => 7
  | iconst5 => 8
  | lconst0 => 9
  | lconst1 => 10
  | fconst0 => 11
  | fconst1 => 12
  | fconst2 => 13
  | dconst0 => 14
  | dconst1 => 15
  | bipush => 16
  | sipush => 17
  | ldc => 18
  | iload => 21
  | lload => 22
  | fload => 23
  | dload => 24
  | aload => 25
  | istore => 54
  | lstore => 55
  | fstore => 56
  | dstore => 57
  | astore => 58
  | pop => 87
  | dup => 89
  | iadd => 96
  | isub => 100
  | imul => 104
  | ineg => 116
  | ifeq => 153
  | ifne => 154
  | ifIcmpeq => 159
  | ifIcmpne => 160
  | goto => 167
  | ireturn => 172
  | lreturn => 173
  | freturn => 174
  | dreturn => 175
  | areturn => 176
  | «return» => 177
  | getstatic => 178
  | putstatic => 179
  | getfield => 180
  | putfield => 181
  | invokevirtual => 182
  | invokespecial => 183
  | invokestatic => 184
  | invokeinterface => 185
  | new => 187
  | athrow => 191
  | checkcast => 192
  | «instanceof» => 193
  | ifnull => 198
  | ifnonnull => 199

def isZero : Opcode → Bool
  | iconst0 | lconst0 | fconst0 | dconst0 => true
  | _ => false

def isInvoke : Opcode → Bool
  | invokevirtual | invokespecial | invokestatic | invokeinterface => true
  | _ => false

def isJump : Opcode → Bool
  | ifeq | ifne | ifIcmpeq | ifIcmpne | goto | ifnull | ifnonnull => true
  | _ => false

def isVariable : Opcode → Bool
  | iload | lload | fload | dload | aload | istore | lstore | fstore | dstore | astore => true
  | _ => false

def isField : Opcode → Bool
  | getstatic | putstatic | getfield | putfield => true
  | _ => false

def isType : Opcode → Bool
  | new | checkcast | «instanceof» => true
  | _ => false

/-- The opcode with a given mnemonic, in any case and between blanks. -/
def parse? (text : String) : Option Opcode :=
  all.find? fun o => Text.sameLetters (Text.trimmed text) o.mnemonic

end Opcode

end MutantSieve
