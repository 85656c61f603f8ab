import IrohHydeAuth.Coherence
import IrohHydeAuth.OneWayVerdict
import IrohHydeAuth.MutualVerdict
import IrohHydeAuth.SshCursor
import IrohHydeAuth.SshBackend
import IrohHydeAuth.Framing
import IrohHydeAuth.CloseCodes
import IrohHydeAuth.Freshness
import IrohHydeAuth.CrossDial
import IrohHydeAuth.Isolation
import IrohHydeAuth.Initiation
import IrohHydeAuth.Budgets
import IrohHydeAuth.Signer
import IrohHydeAuth.Grammar
import IrohHydeAuth.AccessControl
import IrohHydeAuth.EndToEnd
import IrohHydeAuth.Settling
import IrohHydeAuth.HookChain
import IrohHydeAuth.SharedSigner
