import DeviceQemu.StepSystem
import DeviceQemu.RingWindow
import DeviceQemu.LinkedWalk
import DeviceQemu.Virtmmio
import DeviceQemu.VirtnetTx
import DeviceQemu.VirtnetTxOwnership
import DeviceQemu.VirtnetTxSteps
import DeviceQemu.VirtnetTxPartition
import DeviceQemu.InterruptLine
import DeviceQemu.VirtnetRx
import DeviceQemu.Virtnet
import DeviceQemu.VirtnetWakeup
import DeviceQemu.Virtgpu
import DeviceQemu.VirtgpuRefresh
import DeviceQemu.VirtgpuChains
import DeviceQemu.Virtinput
import DeviceQemu.VirtinputReports
import DeviceQemu.VirtinputWakeup
import DeviceQemu.SyncRequest
import DeviceQemu.SyncRequestCompletion
import DeviceQemu.OrderedMultiset
import DeviceQemu.HdiDisplay
import DeviceQemu.HdiDisplayLayers
import DeviceQemu.BoundedFifo
import DeviceQemu.CircularBuffer
import DeviceQemu.UartPl011
import DeviceQemu.RegionLayout
import DeviceQemu.UartPl011Fifo
import DeviceQemu.VirtmmioLayout
import DeviceQemu.ByteMemory
import DeviceQemu.CfiFlash
import DeviceQemu.CfiFlashArray
import DeviceQemu.HandleTable
import DeviceQemu.HdiDrmLayer
import DeviceQemu.HdiDrmLayerHandles
import DeviceQemu.HdiComposition
import DeviceQemu.HdiCompositionLayers
import DeviceQemu.Mmz
import DeviceQemu.MmzOwnership
import DeviceQemu.HandoverLog
import DeviceQemu.VirtnetRxBuffers
import DeviceQemu.VirtnetRxConservation
import DeviceQemu.VirtnetRxPackets
import DeviceQemu.VirtioInit
import DeviceQemu.VirtioInitMemory
import DeviceQemu.DmaLifetime
import DeviceQemu.VirtioTraffic
import DeviceQemu.VirtioLifetime
import DeviceQemu.IdLedger
import DeviceQemu.HdiIdSets
import DeviceQemu.HdiIdSetsUnique
import DeviceQemu.DrmDevice
import DeviceQemu.DrmDevicePipelines
import DeviceQemu.HdiDrmPlanes
import DeviceQemu.RkNodes
import DeviceQemu.RkNodesFrame
import DeviceQemu.VersionedReads
import DeviceQemu.VirtmmioNegotiate
import DeviceQemu.VirtinputHidInfo
import DeviceQemu.DisplayThreads
import DeviceQemu.SharedSegments
import DeviceQemu.DisplayGralloc
import DeviceQemu.ChainedBuckets
import DeviceQemu.FbMem
import DeviceQemu.ResourceLedger
import DeviceQemu.DisplayLayer
import DeviceQemu.DisplayLayerDiscipline
import DeviceQemu.VirtMmc
import DeviceQemu.BitFields
import DeviceQemu.VirtMmcCsd
import DeviceQemu.VirtMmcAddressing
import DeviceQemu.CfiFlashBounds
import DeviceQemu.RamVirtFlash
import DeviceQemu.VirtgpuFb
import DeviceQemu.VirtgpuFbMmap
import DeviceQemu.VirtgpuFbSizing
import DeviceQemu.VirtnetOutput
import DeviceQemu.VirtnetOutputAtomic
import DeviceQemu.BlockLedger
import DeviceQemu.VirtnetBringUp
import DeviceQemu.DisplayGrallocAlloc
import DeviceQemu.HiGbm
import DeviceQemu.DisplayGrallocSizes
import DeviceQemu.DrmIdleCrtc
import DeviceQemu.DrmModes
import DeviceQemu.DrmModesSettable
import DeviceQemu.DisplayLayerPainting
import DeviceQemu.DrmHotplug
import DeviceQemu.DrmHotplugExact
import DeviceQemu.MmzAllocAtomic
import DeviceQemu.Uart
import DeviceQemu.UartBaudrate
import DeviceQemu.UartIrq
import DeviceQemu.UartOpenClose
import DeviceQemu.StreamFilter
import DeviceQemu.VirtinputFilter
import DeviceQemu.UartBlockingRead
import DeviceQemu.UartBlockingReadCalm
import DeviceQemu.PatternScan
import DeviceQemu.RkCodecNode
import DeviceQemu.PixelGrid
import DeviceQemu.TerminatedStrings
import DeviceQemu.HdiLayerPixels
import DeviceQemu.UeventMonitor
import DeviceQemu.InputDev
import DeviceQemu.RkExifNode
import DeviceQemu.GbmManager
import DeviceQemu.GbmAllocMem
import DeviceQemu.GbmMmap
import DeviceQemu.AlsaVolume
import DeviceQemu.CursorWalk
import DeviceQemu.HdfSyscallAdapter
import DeviceQemu.CyclicSearch
import DeviceQemu.DisplayGrallocKeys
import DeviceQemu.VirtMmcBits
import DeviceQemu.HalFile
import DeviceQemu.HdiCompositionDecision
import DeviceQemu.MixedRadix
import DeviceQemu.VsyncTimestamps
import DeviceQemu.RetryLoop
import DeviceQemu.DmaBufferSync
import DeviceQemu.PreemptedCode
import DeviceQemu.CkUsart
import DeviceQemu.CkUsartTx
import DeviceQemu.CkUsartRx
import DeviceQemu.CkUsartConfig
import DeviceQemu.FramedStream
import DeviceQemu.Lan9118Tx
import DeviceQemu.Lan9118Rx
import DeviceQemu.Lan9118Csr
import DeviceQemu.HdiFences
import DeviceQemu.FbDevice
