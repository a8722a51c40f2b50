import Keystone.MC.Fragment
import Keystone.MC.FixupKind
import Keystone.MC.OrMerge
import Keystone.RISCV.AsmBackend
import Keystone.RISCV.Encoding
import Keystone.RISCV.Fields
import Keystone.RISCV.PCRel
import Keystone.RISCV.Bounds
import Keystone.SystemZ.AsmBackend
import Keystone.SystemZ.ApplyFixup
import Keystone.NopData
import Keystone.FixupOrder
import Keystone.TableGen.SeqLess
import Keystone.TableGen.SequenceToOffsetTable
import Keystone.TableGen.Layout
import Keystone.TableGen.StringMatcher
import Keystone.TableGen.StringMatcherCorrect
import Keystone.TableGen.StringMatcherCalls
import Keystone.TableGen.StringMatcherSafe
import Keystone.TableGen.InfoByHwMode
import Keystone.Windows.CommandLine
import Keystone.Unix.Signals
import Keystone.Windows.Signals
import Keystone.CommandLineLimits
import Keystone.Host.PowerPC
import Keystone.Host.X86Features
import Keystone.Host.X86Name
