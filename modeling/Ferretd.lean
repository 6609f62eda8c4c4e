import Ferretd.Lifecycle.Calls
import Ferretd.Exec.ManagerErrors
import Ferretd.Exec.ManagerMisuse
import Ferretd.Debug.SessionCoherence
import Ferretd.Debug.SessionResume
import Ferretd.Debug.SessionIndependence
import Ferretd.Debug.ManagerErrors
import Ferretd.Documents.Lookup
import Ferretd.Documents.Agreement
import Ferretd.Documents.Convergence
import Ferretd.Documents.Unchanged
import Ferretd.Documents.Exclusion
import Ferretd.Documents.Rollback
import Ferretd.Composition.WorkspaceTeardown
import Ferretd.Language.Symbols
import Ferretd.Dap.Progress
import Ferretd.Dap.Entry
import Ferretd.Dap.StackTrace
import Ferretd.Dap.HandleEpochs
import Ferretd.Lsp.Dispatch
import Ferretd.Lsp.SemanticTokens
import Ferretd.Daemon.Shutdown
import Ferretd.Composition.DaemonWorkspaces
