import GoBtpereum.Abi.Selector
import GoBtpereum.Abi.Unpack
import GoBtpereum.Puppeth.Forks
import GoBtpereum.Btp.ModifiedAccounts
import GoBtpereum.Btp.ImportChain
import GoBtpereum.Btp.Config
import GoBtpereum.Btp.Metered
