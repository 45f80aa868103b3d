import OpenCog.AtomSpace
import OpenCog.Query.PatternMatch
import OpenCog.Query.Implicator
import OpenCog.Query.Declarations
import OpenCog.Query.Protocol
import OpenCog.Moses.DemeExpander
import OpenCog.Moses.PruneXmplr
import OpenCog.Moses.Expansion
import OpenCog.Shell.GenericShell
import OpenCog.Shell.Session
