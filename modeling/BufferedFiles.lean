import BufferedFiles.Main
import BufferedFiles.Session.Command
import BufferedFiles.Proofs.PlainFile
import BufferedFiles.Proofs.Port
import BufferedFiles.Proofs.Transfers
import BufferedFiles.Proofs.StreamFrame
import BufferedFiles.Proofs.StreamInvariant
import BufferedFiles.Proofs.OutputLedger
import BufferedFiles.Proofs.Acceptance
import BufferedFiles.Proofs.DeviceMoves
import BufferedFiles.Proofs.StreamMoves
import BufferedFiles.Proofs.StreamPosition
import BufferedFiles.Proofs.StreamOperations
import BufferedFiles.Proofs.Walks
import BufferedFiles.Proofs.Opening
import BufferedFiles.Proofs.HandleRun
import BufferedFiles.Proofs.Delivery
import BufferedFiles.Proofs.InputSupply
import BufferedFiles.Proofs.Reading
import BufferedFiles.Proofs.InputRuns
import BufferedFiles.Proofs.PlainFileCalls
import BufferedFiles.Proofs.FileRuns
import BufferedFiles.Proofs.Sharing
import BufferedFiles.Proofs.Copying
import BufferedFiles.Proofs.Concatenation
import BufferedFiles.Proofs.ConcatRuns
import BufferedFiles.Proofs.LastError
import BufferedFiles.Proofs.Indicator
import BufferedFiles.Proofs.IndicatorRuns
import BufferedFiles.Proofs.Lasting
import BufferedFiles.Proofs.Stock
import BufferedFiles.Proofs.Places
import BufferedFiles.Proofs.Termination
import BufferedFiles.Proofs.RunTermination
import BufferedFiles.Proofs.Separation
import BufferedFiles.Proofs.Locality
import BufferedFiles.Proofs.Independence
import BufferedFiles.Proofs.OneWay
import BufferedFiles.Proofs.OutputOrder
import BufferedFiles.Proofs.RequestOperations
import BufferedFiles.Proofs.WrongDirection
import BufferedFiles.Proofs.Interruption
import BufferedFiles.Proofs.StoppedRuns
import BufferedFiles.Proofs.Tokens
import BufferedFiles.Proofs.Books
import BufferedFiles.Proofs.SessionBooks
import BufferedFiles.Proofs.SessionRuns
import BufferedFiles.Proofs.SessionAccounts
import BufferedFiles.Proofs.ConsoleRuns
import BufferedFiles.Proofs.SessionNames
import BufferedFiles.Proofs.ClosedHandles
import BufferedFiles.Proofs.SessionHandles
import BufferedFiles.Proofs.SessionClosing
import BufferedFiles.Proofs.Clones
import BufferedFiles.Proofs.Appending
import BufferedFiles.Proofs.AppendingRuns
import BufferedFiles.Proofs.Arguments
import BufferedFiles.Proofs.Rejection
import BufferedFiles.Proofs.Spelling
import BufferedFiles.Proofs.DeviceReads
import BufferedFiles.Proofs.Holding
import BufferedFiles.Proofs.HeldFailures
import BufferedFiles.Proofs.LostLines
import BufferedFiles.Proofs.RefusedOpens
import BufferedFiles.Proofs.Visibility
import BufferedFiles.Proofs.LineLengths
import BufferedFiles.Proofs.PipeStreams
import BufferedFiles.Proofs.FileOperations
import BufferedFiles.Proofs.PipeOperations
import BufferedFiles.Proofs.RefusedSeeks
