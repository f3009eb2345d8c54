import DsProxy.BalancePayment.Solvency
import DsProxy.BalancePayment.Authority
import DsProxy.BalancePayment.Isolation
import DsProxy.BalancePayment.Acceptance
import DsProxy.BalancePayment.Choice
import DsProxy.BalancePayment.Eligibility
import DsProxy.BalancePayment.Settling
import DsProxy.BalancePayment.Reads
import DsProxy.BalancePayment.Footprint
import DsProxy.BalancePayment.Exit
import DsProxy.BalancePayment.Submit
import DsProxy.Controller.Session
import DsProxy.Controller.Guards
import DsProxy.Controller.Recovery
import DsProxy.Controller.Release
import DsProxy.Backend.Ownership
import DsProxy.Backend.Login
import DsProxy.Backend.Balance
import DsProxy.Backend.Resume
import DsProxy.Backend.Interleaving
import DsProxy.Backend.Answer
import DsProxy.Backend.Consumption
import DsProxy.Backend.Dialogue
import DsProxy.Deployment.Backing
import DsProxy.Deployment.Charges
import DsProxy.Deployment.WireFormat
import DsProxy.Deployment.Payment
import DsProxy.Deployment.Streaming
import DsProxy.Lib.Reorder
import DsProxy.Backend.Verifiers
import DsProxy.App.RecoverInfo
import DsProxy.App.Digest
import DsProxy.App.Charge
import DsProxy.Backend.Request
import DsProxy.Backend.Spending
import DsProxy.BalancePayment.Digest
import DsProxy.Lib.Codec
import DsProxy.Backend.Privacy
import DsProxy.BalancePayment.Conservation
import DsProxy.Backend.Authentic
import DsProxy.Deployment.Chat
import DsProxy.App.Segments
import DsProxy.App.Session
import DsProxy.Backend.Token
import DsProxy.Deployment.Session
