import Cheviot.Framework.Prog
import Cheviot.Framework.Proc
import Cheviot.Framework.Frame
import Cheviot.Framework.Wp
import Cheviot.Framework.Mirror
import Cheviot.Framework.Ghost
import Cheviot.Framework.Text
import Cheviot.Framework.Tokens
import Cheviot.Framework.Assign
import Cheviot.Framework.Field
import Cheviot.Framework.Getopt
import Cheviot.Framework.Service
import Cheviot.Framework.Sum
import Cheviot.Framework.Ends
import Cheviot.Framework.Heap
import Cheviot.Framework.Pool
import Cheviot.Framework.Files
import Cheviot.Framework.Numeral
import Cheviot.Framework.Options
import Cheviot.Impl.Sysinit.Types
import Cheviot.Impl.Sysinit.RunS
import Cheviot.Impl.Sysinit.Sessions
import Cheviot.Impl.Sysinit.Main
import Cheviot.Impl.Servers.Init
import Cheviot.Impl.Sysinfo.Main
import Cheviot.Impl.Servers.Main
import Cheviot.Impl.Sysinit.Children
import Cheviot.Impl.Sysinit.Init
import Cheviot.Spec.Script
import Cheviot.Spec.Tokens
import Cheviot.Spec.Lines
import Cheviot.Spec.Machine
import Cheviot.Spec.Loading
import Cheviot.Spec.Port
import Cheviot.Spec.Sessions
import Cheviot.Spec.Children
import Cheviot.Spec.Handover
import Cheviot.Spec.Ttys
import Cheviot.Spec.Starts
import Cheviot.Spec.Sysinfo
import Cheviot.Spec.CommandLine
import Cheviot.Spec.Service
import Cheviot.Spec.Boot
import Cheviot.Spec.Program
import Cheviot.Spec.Phases
import Cheviot.Spec.Heap
import Cheviot.Spec.Terminals
import Cheviot.Proof.Cstr
import Cheviot.Proof.Tokenize
import Cheviot.Proof.Tokens
import Cheviot.Proof.Commands
import Cheviot.Proof.Operands
import Cheviot.Proof.Script
import Cheviot.Proof.Lines
import Cheviot.Proof.ScriptLaws
import Cheviot.Proof.Frames
import Cheviot.Proof.Loading
import Cheviot.Proof.Main
import Cheviot.Proof.Ports
import Cheviot.Proof.MessageLoop
import Cheviot.Proof.ShutdownHow
import Cheviot.Proof.Request
import Cheviot.Proof.Sessions
import Cheviot.Proof.RunRc
import Cheviot.Proof.Collect
import Cheviot.Proof.Reaper
import Cheviot.Proof.Freed
import Cheviot.Proof.RcScript
import Cheviot.Proof.Handover
import Cheviot.Proof.Argv
import Cheviot.Proof.Alloc
import Cheviot.Proof.Ttys
import Cheviot.Proof.Starts
import Cheviot.Proof.Servers
import Cheviot.Proof.Answers
import Cheviot.Proof.Sysinfo
import Cheviot.Proof.Replies
import Cheviot.Proof.Service
import Cheviot.Proof.Phases
import Cheviot.Proof.Heap
import Cheviot.Proof.Boot
import Cheviot.Proof.Terminals
import Cheviot.Proof.Forks
import Cheviot.Proof.CommandLine
import Cheviot.Proof.Program
import Cheviot.Proof.Descriptors
import Cheviot.Proof.Ends
