import DolphinCore.CoreTiming.FifoOrder
import DolphinCore.PPCCache.Coherence
import DolphinCore.JitCache.Invalidate
import DolphinCore.Common.SettingsHandler
import DolphinCore.DiscIO.DecompressFile
import DolphinCore.IOS.UIDSys
import DolphinCore.Common.SysConf
import DolphinCore.NetPlay.PadAgreement
import DolphinCore.NetPlay.Players
import DolphinCore.NetPlay.TimeBase
import DolphinCore.PrimeHack.Callgates
import DolphinCore.PrimeHack.RevertChanges
import DolphinCore.DiscIO.ScrubbedDisc
import DolphinCore.DSP.LoopExecution
import DolphinCore.CommandProcessor.Interrupts
import DolphinCore.CommandProcessor.RingDistance
import DolphinCore.Common.BlockingLoop
import DolphinCore.FifoPlayer.Replay
import DolphinCore.Common.IniReload
import DolphinCore.FifoPlayer.SavedFile
import DolphinCore.IOS.IPCHandshake
import DolphinCore.IOS.KernelRestore
import DolphinCore.IOS.SharedContents
import DolphinCore.MMU.BatLookup
import DolphinCore.MMU.Fault
import DolphinCore.PPCAnalyst.BlockInputs
import DolphinCore.PPCAnalyst.BranchFollowing
import DolphinCore.ActionReplay.CodeMeaning
import DolphinCore.ActionReplay.LoadCodes
import DolphinCore.DiscIO.TGCBlob
import DolphinCore.Gecko.CodeHandler
import DolphinCore.IOS.BlobBounds
import DolphinCore.Interpreter.CarryArithmetic
import DolphinCore.Interpreter.ConditionRegister
import DolphinCore.Memcard.BrokenChains
import DolphinCore.DiscIO.OffsetLookup
import DolphinCore.CoreTiming.Ledger
import DolphinCore.ActionReplay.CipherInverse
import DolphinCore.Memcard.Accounting
import DolphinCore.Memcard.GciFiles
import DolphinCore.CommandProcessor.GPFifo
import DolphinCore.Common.AllocationMap
import DolphinCore.Common.ConstantBuffer
import DolphinCore.Crypto.Bn
import DolphinCore.DSP.Accelerator
import DolphinCore.DSP.AddressRegisters
import DolphinCore.DSP.SumFlags
import DolphinCore.DiscIO.VolumeWii
import DolphinCore.DiscIO.WbfsBlob
import DolphinCore.FifoPlayer.DrawnObjects
import DolphinCore.GX.IndexGenerator
import DolphinCore.GX.ListBounds
import DolphinCore.PrimeHack.AddressDB
import DolphinCore.PrimeHack.BeamSwitch
import DolphinCore.SystemTimers.TimeBase
import DolphinCore.Traversal.ConnectInvariant
