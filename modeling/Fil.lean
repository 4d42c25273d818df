import Fil.MicroRefinement
import Fil.ReadBack
import Fil.MmioRouter
import Fil.Crc
import Fil.CanLedger
import Fil.BlockCredit
import Fil.Watchpoints
import Fil.NativeStack
import Fil.RamInputs
import Fil.RxFifo
import Fil.TxLifeCycle
import Fil.LazyConversions
import Fil.WindowOrder
import Fil.DebugRegisters
import Fil.TransferLaws
import Fil.FrameStream
import Fil.ExactStore
import Fil.LaneCapture
import Fil.PrefixCosts
import Fil.Gpio
